import Rollup.Duration

/-! The short written form of durations: a number, with a plus sign or without, and a unit, between blanks. What is
written so is read unless it comes to more seconds than a word holds, and nothing else is read. -/

namespace Rollup

namespace Text

theorem exists_trim (text : List Char) : ∃ front back, text = front ++ trim text ++ back ∧
    (∀ c ∈ front, isBlank c = true) ∧ ∀ c ∈ back, isBlank c = true := by
  have start : text.takeWhile isBlank ++ text.dropWhile isBlank = text := List.takeWhile_append_dropWhile
  generalize rest : text.dropWhile isBlank = trimmed at start
  have ending : trimmed = trim text ++ (trimmed.reverse.takeWhile isBlank).reverse := by
    rw [trim, rest, ← List.reverse_append, List.takeWhile_append_dropWhile, List.reverse_reverse]
  refine ⟨text.takeWhile isBlank, (trimmed.reverse.takeWhile isBlank).reverse, ?_, ?_, ?_⟩
  · rw [List.append_assoc, ← ending, start]
  · exact List.all_eq_true.mp List.all_takeWhile
  · intro c member
    exact List.all_eq_true.mp List.all_takeWhile c (List.mem_reverse.mp member)

private theorem dropWhile_blanks {blanks rest : List Char} {first : Char} (blank : ∀ c ∈ blanks, isBlank c = true)
    (begins : isBlank first = false) : (blanks ++ first :: rest).dropWhile isBlank = first :: rest := by
  rw [List.dropWhile_append_of_pos blank]
  exact List.dropWhile_cons_of_neg (Bool.eq_false_iff.mp begins)

/-- Between blanks, what begins and ends with something else is what is left. -/
theorem trim_of_blanks {front back init rest : List Char} {first last : Char}
    (blankFront : ∀ c ∈ front, isBlank c = true) (blankBack : ∀ c ∈ back, isBlank c = true)
    (begins : isBlank first = false) (ends : isBlank last = false) (shape : first :: rest = init ++ [last]) :
    trim (front ++ (init ++ [last]) ++ back) = init ++ [last] := by
  have reversed : ∀ c ∈ back.reverse, isBlank c = true := fun c member => blankBack c (List.mem_reverse.mp member)
  have cut : (front ++ (init ++ [last]) ++ back).dropWhile isBlank = init ++ [last] ++ back := by
    rw [← shape, List.append_assoc, List.cons_append]
    exact dropWhile_blanks blankFront begins
  rw [trim, cut, List.reverse_append, List.reverse_append, List.reverse_singleton, List.singleton_append,
    dropWhile_blanks reversed ends, List.reverse_cons, List.reverse_reverse]

theorem isBlank_of_graphic {c : Char} (low : 0x21 ≤ c.toNat) (high : c.toNat ≤ 0x7E) : isBlank c = false := by
  apply Bool.eq_false_iff.mpr
  simp only [isBlank, blankRanges, List.any_cons, List.any_nil, ne_eq, Bool.or_eq_true, Bool.and_eq_true,
    decide_eq_true_eq, Bool.false_eq_true, or_false]
  omega

end Text

namespace Word
variable {text digits : List Char}

theorem toNat_ofNat {n : Nat} (small : n ≤ largest) : (UInt64.ofNat n).toNat = n :=
  UInt64.toNat_ofNat_of_lt' (Nat.lt_succ_of_le small)

def sign (plus : Bool) : List Char := if plus then ['+'] else []

/-- The text without a plus sign in front. -/
def unsigned (text : List Char) : List Char := if text.head? = some '+' then text.tail else text

theorem exists_sign (text : List Char) : ∃ plus, text = sign plus ++ unsigned text := by
  unfold unsigned
  split
  · next signed =>
    obtain ⟨rest, shape⟩ := List.head?_eq_some_iff.mp signed
    refine ⟨true, ?_⟩
    rw [shape]
    rfl
  · exact ⟨false, rfl⟩

theorem unsigned_digits (plus : Bool) (allDigits : ∀ c ∈ digits, c.isDigit = true) :
    unsigned (sign plus ++ digits) = digits := by
  cases plus with
  | true => rfl
  | false =>
    apply if_neg
    intro first
    exact absurd (allDigits '+' (List.mem_of_mem_head? first)) (by decide)

theorem digits?_eq (filled : digits ≠ []) (allDigits : ∀ c ∈ digits, c.isDigit = true) :
    digits? digits = some (Nat.ofDigitChars 10 digits 0) :=
  if_pos ⟨filled, List.all_eq_true.mpr allDigits⟩

theorem digits?_eq_some {n : Nat} (read : digits? text = some n) :
    text ≠ [] ∧ (∀ c ∈ text, c.isDigit = true) ∧ Nat.ofDigitChars 10 text 0 = n := by
  unfold digits? at read
  split at read
  · next digits => exact ⟨digits.1, List.all_eq_true.mp digits.2, Option.some.inj read⟩
  · cases read

theorem ofText?_eq (text : List Char) :
    ofText? text = (digits? (unsigned text)).bind fun n => if n ≤ largest then some (UInt64.ofNat n) else none := by
  unfold unsigned
  split
  · next signed =>
    obtain ⟨rest, rfl⟩ := List.head?_eq_some_iff.mp signed
    rw [ofText?, List.tail_cons]
    cases digits? rest <;> rfl
  · next other =>
    rw [ofText?]
    · cases digits? text <;> rfl
    · intro rest shape
      exact other (List.head?_eq_some_iff.mpr ⟨rest, shape⟩)

theorem ofText?_digits (plus : Bool) (filled : digits ≠ []) (allDigits : ∀ c ∈ digits, c.isDigit = true) :
    ofText? (sign plus ++ digits) =
      if Nat.ofDigitChars 10 digits 0 ≤ largest then some (UInt64.ofNat (Nat.ofDigitChars 10 digits 0)) else none := by
  rw [ofText?_eq, unsigned_digits plus allDigits, digits?_eq filled allDigits, Option.bind_some]

theorem ofText?_eq_some {word : UInt64} (read : ofText? text = some word) :
    ∃ plus digits, text = sign plus ++ digits ∧ digits ≠ [] ∧ (∀ c ∈ digits, c.isDigit = true) ∧
      Nat.ofDigitChars 10 digits 0 = word.toNat := by
  rw [ofText?_eq] at read
  obtain ⟨n, number, fits⟩ := Option.bind_eq_some_iff.mp read
  obtain ⟨filled, allDigits, value⟩ := digits?_eq_some number
  obtain ⟨plus, shape⟩ := exists_sign text
  refine ⟨plus, unsigned text, shape, filled, allDigits, ?_⟩
  split at fits
  · next small =>
    cases fits
    rw [value, toNat_ofNat small]
  · cases fits

end Word

namespace Duration

/-- The letters of the units, with the seconds in each. -/
def units : List (Char × Nat) := [('s', 1), ('m', 60), ('h', 3600), ('d', 86400)]

/-- A duration as it is written: a number, with a plus sign or without, and a unit, between blanks. -/
structure Written where
  front : List Char
  plus : Bool
  digits : List Char
  unit : Char
  factor : Nat
  back : List Char
  blankFront : ∀ c ∈ front, Text.isBlank c = true
  filled : digits ≠ []
  allDigits : ∀ c ∈ digits, c.isDigit = true
  known : (unit, factor) ∈ units
  blankBack : ∀ c ∈ back, Text.isBlank c = true

namespace Written

def number (written : Written) : List Char := Word.sign written.plus ++ written.digits

def text (written : Written) : String :=
  String.ofList (written.front ++ (written.number ++ [written.unit]) ++ written.back)

def amount (written : Written) : Nat := Nat.ofDigitChars 10 written.digits 0

def seconds (written : Written) : Nat := written.amount * written.factor

end Written

theorem unitSeconds?_iff {unit : Char} {factor : Nat} : unitSeconds? unit = some factor ↔ (unit, factor) ∈ units := by
  constructor
  · intro known
    unfold unitSeconds? at known
    split at known <;> cases known <;> decide
  · intro known
    simp only [units, List.mem_cons, Prod.mk.injEq, List.not_mem_nil, or_false] at known
    rcases known with ⟨rfl, rfl⟩ | ⟨rfl, rfl⟩ | ⟨rfl, rfl⟩ | ⟨rfl, rfl⟩ <;> rfl

/-- A unit is an ASCII character that is no blank, and has some seconds. -/
theorem units_within {unit : Char} {factor : Nat} (known : (unit, factor) ∈ units) :
    0x21 ≤ unit.toNat ∧ unit.toNat ≤ 0x7E ∧ 0 < factor ∧ factor ≤ 86400 := by
  simp only [units, List.mem_cons, Prod.mk.injEq, List.not_mem_nil, or_false] at known
  rcases known with ⟨rfl, rfl⟩ | ⟨rfl, rfl⟩ | ⟨rfl, rfl⟩ | ⟨rfl, rfl⟩ <;> decide

theorem toNat_of_isDigit {c : Char} (digit : c.isDigit = true) : 0x30 ≤ c.toNat ∧ c.toNat ≤ 0x39 := by
  simp only [Char.isDigit, Bool.and_eq_true, decide_eq_true_eq] at digit
  exact digit

private theorem Written.number_cons (written : Written) :
    ∃ c rest, written.number = c :: rest ∧ Text.isBlank c = false := by
  obtain ⟨_, plus, digits, _, _, _, _, filled, allDigits, _, _⟩ := written
  cases digits with
  | nil => exact absurd rfl filled
  | cons digit digits =>
    cases plus with
    | true => exact ⟨'+', digit :: digits, rfl, Text.isBlank_of_graphic (by decide) (by decide)⟩
    | false =>
      obtain ⟨low, high⟩ := toNat_of_isDigit (allDigits digit List.mem_cons_self)
      exact ⟨digit, digits, rfl, Text.isBlank_of_graphic (by omega) (by omega)⟩

/-- Only the blanks are cut off. -/
theorem Written.trim_text (written : Written) :
    Text.trim written.text.toList = written.number ++ [written.unit] := by
  obtain ⟨low, high, _⟩ := units_within written.known
  obtain ⟨c, rest, shape, begins⟩ := written.number_cons
  have first : c :: (rest ++ [written.unit]) = written.number ++ [written.unit] := by rw [shape, List.cons_append]
  rw [text, String.toList_ofList]
  exact Text.trim_of_blanks written.blankFront written.blankBack begins (Text.isBlank_of_graphic low high) first

variable {text : String} {front : List Char} {unit : Char} {amount : UInt64} {factor : Nat}

/-- A number in front of a known unit has been written as a duration. -/
theorem exists_written (shape : Text.trim text.toList = front ++ [unit]) (number : Word.ofText? front = some amount)
    (known : unitSeconds? unit = some factor) :
    ∃ written : Written, written.text = text ∧ written.amount = amount.toNat ∧ written.factor = factor := by
  obtain ⟨first, last, whole, blankFront, blankBack⟩ := Text.exists_trim text.toList
  obtain ⟨plus, digits, spelled, filled, allDigits, value⟩ := Word.ofText?_eq_some number
  refine ⟨⟨first, plus, digits, unit, factor, last, blankFront, filled, allDigits, unitSeconds?_iff.mp known,
    blankBack⟩, ?_, value, rfl⟩
  rw [Written.text, Written.number, ← spelled, ← shape, ← whole, String.ofList_toList]

/-- What may come of a text. -/
inductive Outcome (text : String) : Except IntervalFault Duration → Prop
  | read {written : Written} (same : written.text = text) (fits : written.seconds ≤ Word.largest) :
      Outcome text (.ok ⟨UInt64.ofNat written.seconds, 0⟩)
  | tooLarge {written : Written} (same : written.text = text) (large : Word.largest < written.seconds) :
      Outcome text (.error (.tooLarge (String.ofList (Text.trim text.toList))))
  | unknownUnit {unit : Char} (last : (Text.trim text.toList).getLast? = some unit)
      (unknown : unitSeconds? unit = none) : Outcome text (.error (.unknownUnit unit))
  | unreadable
      (unread : ∀ unit, (Text.trim text.toList).getLast? = some unit → unit.toNat < 128 →
        Word.ofText? (Text.trim text.toList).dropLast = none) :
      Outcome text (.error (.unreadable (String.ofList (Text.trim text.toList))))

theorem outcome (text : String) : Outcome text (parse text) := by
  unfold parse
  dsimp only
  split
  · next nothing => exact .unreadable fun unit last => by rw [nothing] at last; cases last
  next unit last =>
  have same : ∀ other, (Text.trim text.toList).getLast? = some other → other = unit := fun other found =>
    Option.some.inj (found.symm.trans last)
  split
  case isFalse wide => exact .unreadable fun other found ascii => absurd (same other found ▸ ascii) wide
  split
  · next unread => exact .unreadable fun _ _ _ => unread
  next amount number =>
  split
  · next unknown => exact .unknownUnit last unknown
  next factor known =>
  have shape : Text.trim text.toList = (Text.trim text.toList).dropLast ++ [unit] := by
    obtain ⟨front, whole⟩ := List.getLast?_eq_some_iff.mp last
    rw [whole, List.dropLast_concat]
  obtain ⟨written, same, value, unit⟩ := exists_written shape number known
  have seconds : amount.toNat * factor = written.seconds := by rw [Written.seconds, value, unit]
  rw [seconds]
  split
  · next fits => exact .read same fits
  · next large => exact .tooLarge same (Nat.lt_of_not_le large)

/-- What is written is read if it is not too large. -/
theorem parse_written {written : Written} (fits : written.seconds ≤ Word.largest) :
    parse written.text = .ok ⟨UInt64.ofNat written.seconds, 0⟩ := by
  obtain ⟨_, high, positive, _⟩ := units_within written.known
  have ascii : written.unit.toNat < 128 := by omega
  have small : written.amount ≤ Word.largest := Nat.le_trans (Nat.le_mul_of_pos_right _ positive) fits
  have read : Word.ofText? written.number = some (UInt64.ofNat written.amount) :=
    (Word.ofText?_digits written.plus written.filled written.allDigits).trans (if_pos small)
  simp only [parse, written.trim_text, List.getLast?_concat, List.dropLast_concat, ascii, if_true, read,
    unitSeconds?_iff.mpr written.known, Word.toNat_ofNat small]
  exact if_pos fits

end Duration

end Rollup
