import Rollup.Json.Record
import Rollup.Json.Token

/-! Numbers as literals. The digits of a natural number are read back as that number and are a literal of JSON, and a
literal is made of characters that hold a word together. -/

namespace Rollup

theorem Word.digits?_toDigits (n : Nat) : Word.digits? (Nat.toDigits 10 n) = some n := by
  have digits : (Nat.toDigits 10 n).all Char.isDigit = true :=
    List.all_eq_true.mpr fun _ member => Nat.isDigit_of_mem_toDigits (by decide) (by decide) member
  rw [Word.digits?, if_pos ⟨Nat.toDigits_ne_nil, digits⟩, Nat.ofDigitChars_toDigits (by decide) (by decide)]

namespace Json

theorem natural?_ofNat {n largest : Nat} (small : n ≤ largest) : (Json.ofNat n).natural? largest = some n := by
  simp only [natural?, Json.ofNat, Word.digits?_toDigits, small, if_true]

theorem byte?_ofNat (byte : UInt8) : (Json.ofNat byte.toNat).byte? = some byte := by
  have small : byte.toNat ≤ 255 := Nat.le_of_lt_succ byte.toNat_lt
  rw [byte?, natural?_ofNat small, Option.map_some, UInt8.ofNat_toNat]

theorem word?_ofNat (word : UInt64) : (Json.ofNat word.toNat).word? = some word := by
  have small : word.toNat ≤ Word.largest := Nat.le_of_lt_succ word.toNat_lt
  rw [word?, natural?_ofNat small, Option.map_some, UInt64.ofNat_toNat]

namespace Number

theorem areDigits_iff {text : List Char} : areDigits text = true ↔ text ≠ [] ∧ ∀ c ∈ text, c.isDigit = true := by
  cases text <;> simp [areDigits]

theorem areDigits_toDigits (n : Nat) : areDigits (Nat.toDigits 10 n) = true :=
  areDigits_iff.mpr
    ⟨Nat.toDigits_ne_nil, fun _ member => Nat.isDigit_of_mem_toDigits (by decide) (by decide) member⟩

/-- Only zero begins with the digit zero. -/
theorem head?_toDigits {n : Nat} (positive : 0 < n) : (Nat.toDigits 10 n).head? ≠ some '0' := by
  induction n using Nat.strongRecOn with
  | ind n ih =>
    by_cases small : n < 10
    · rw [Nat.toDigits_of_lt_base small, List.head?_cons, ne_eq, Option.some.injEq, Nat.digitChar_eq_zero]
      omega
    · have front := ih (n / 10) (by omega) (by omega)
      obtain ⟨first, others, shape⟩ := List.exists_cons_of_ne_nil (@Nat.toDigits_ne_nil (n / 10) 10)
      rw [shape] at front
      rw [Nat.toDigits_of_base_le (by decide) (Nat.not_lt.mp small), shape]
      exact front

theorem isWhole_of_head? {digits : List Char} (areDigits : areDigits digits = true) (first : digits.head? ≠ some '0') :
    isWhole digits = true := by
  rw [isWhole, areDigits, Bool.true_and, bne_iff_ne.mpr first, Bool.or_true]

theorem isWhole_toDigits (n : Nat) : isWhole (Nat.toDigits 10 n) = true := by
  rcases Nat.eq_zero_or_pos n with rfl | positive
  · rfl
  · exact isWhole_of_head? (areDigits_toDigits n) (head?_toDigits positive)

theorem areDigits_of_isWhole {digits : List Char} (whole : isWhole digits = true) : areDigits digits = true := by
  simp only [isWhole, Bool.or_eq_true, beq_iff_eq, Bool.and_eq_true] at whole
  rcases whole with rfl | ⟨digits, _⟩
  · rfl
  · exact digits

/-- Digits end where no digit follows. -/
private theorem takeWhile_digits {digits rest : List Char} (allDigits : ∀ c ∈ digits, c.isDigit = true)
    (apart : ∀ c ∈ rest.head?, c.isDigit = false) :
    (digits ++ rest).takeWhile Char.isDigit = digits ∧ (digits ++ rest).dropWhile Char.isDigit = rest := by
  have front : rest.takeWhile Char.isDigit = [] ∧ rest.dropWhile Char.isDigit = rest := by
    cases rest with
    | nil => exact ⟨rfl, rfl⟩
    | cons c rest =>
      have other := apart c rfl
      exact ⟨List.takeWhile_cons_of_neg (by simp [other]), List.dropWhile_cons_of_neg (by simp [other])⟩
  rw [List.takeWhile_append_of_pos allDigits, List.dropWhile_append_of_pos allDigits, front.1, front.2, List.append_nil]
  exact ⟨rfl, rfl⟩

/-- What may follow the whole part of a number. -/
structure Follows (rest : List Char) : Prop where
  apart : ∀ c ∈ rest.head?, c.isDigit = false
  fraction : isFraction rest = true

theorem Follows.nil : Follows [] := ⟨fun _ absent => (by cases absent), rfl⟩

theorem isUnsigned_append {digits rest : List Char} (whole : isWhole digits = true) (follows : Follows rest) :
    isUnsigned (digits ++ rest) = true := by
  have allDigits := (areDigits_iff.mp (areDigits_of_isWhole whole)).2
  obtain ⟨front, back⟩ := takeWhile_digits allDigits follows.apart
  rw [isUnsigned, front, back, whole, follows.fraction, Bool.and_self]

/-- Behind the point stand digits, and then perhaps an exponent. -/
theorem Follows.point {digits rest : List Char} (decimals : areDigits digits = true)
    (apart : ∀ c ∈ rest.head?, c.isDigit = false) (mark : isExponent rest = true) :
    Follows ('.' :: (digits ++ rest)) := by
  obtain ⟨front, back⟩ := takeWhile_digits (areDigits_iff.mp decimals).2 apart
  refine ⟨fun c first => ?_, ?_⟩
  · cases first
    decide
  · rw [isFraction, front, back, decimals, mark, Bool.and_self]

theorem Follows.decimals {digits : List Char} (decimals : areDigits digits = true) : Follows ('.' :: digits) := by
  have point := Follows.point decimals Follows.nil.apart rfl
  rwa [List.append_nil] at point

theorem isLiteral_of_isUnsigned {literal : List Char} (unsigned : isUnsigned literal = true) :
    isLiteral literal = true := by
  unfold isLiteral
  split
  · cases unsigned
  · exact unsigned

theorem isUnsigned_toDigits (n : Nat) : isUnsigned (Nat.toDigits 10 n) = true := by
  have unsigned := isUnsigned_append (isWhole_toDigits n) Follows.nil
  rwa [List.append_nil] at unsigned

theorem isLiteral_toDigits (n : Nat) : isLiteral (Nat.toDigits 10 n) = true :=
  isLiteral_of_isUnsigned (isUnsigned_toDigits n)

section Characters
variable {text : List Char}

private theorem isWordChar_of_isDigit {c : Char} (digit : c.isDigit = true) : Token.isWordChar c = true := by
  simp [Token.isWordChar, Char.isAlphanum, digit]

private theorem all_cons {c : Char} (first : Token.isWordChar c = true) (rest : text.all Token.isWordChar = true) :
    (c :: text).all Token.isWordChar = true := by
  rw [List.all_cons, first, rest, Bool.and_self]

private theorem all_of_areDigits (digits : areDigits text = true) : text.all Token.isWordChar = true :=
  List.all_eq_true.mpr fun c member => isWordChar_of_isDigit ((areDigits_iff.mp digits).2 c member)

private theorem all_of_isExponent (exponent : isExponent text = true) : text.all Token.isWordChar = true := by
  unfold isExponent at exponent
  split at exponent
  · rfl
  · next mark rest =>
    rw [Bool.and_eq_true, Bool.or_eq_true, beq_iff_eq, beq_iff_eq] at exponent
    obtain ⟨letter, digits⟩ := exponent
    refine all_cons (by rcases letter with rfl | rfl <;> decide) ?_
    split at digits
    · exact all_cons (by decide) (all_of_areDigits digits)
    · exact all_cons (by decide) (all_of_areDigits digits)
    · exact all_of_areDigits digits

private theorem all_of_parts (front : (text.takeWhile Char.isDigit).all Token.isWordChar = true)
    (back : (text.dropWhile Char.isDigit).all Token.isWordChar = true) : text.all Token.isWordChar = true := by
  rw [← List.takeWhile_append_dropWhile (p := Char.isDigit) (l := text), List.all_append, front, back, Bool.and_self]

private theorem all_of_isFraction (fraction : isFraction text = true) : text.all Token.isWordChar = true := by
  unfold isFraction at fraction
  split at fraction
  · next rest =>
    rw [Bool.and_eq_true] at fraction
    exact all_cons (by decide) (all_of_parts (all_of_areDigits fraction.1) (all_of_isExponent fraction.2))
  · exact all_of_isExponent fraction

private theorem all_of_isUnsigned (unsigned : isUnsigned text = true) : text.all Token.isWordChar = true := by
  rw [isUnsigned, Bool.and_eq_true] at unsigned
  exact all_of_parts (all_of_areDigits (areDigits_of_isWhole unsigned.1)) (all_of_isFraction unsigned.2)

/-- No character of a literal ends the word that the literal is read as. -/
theorem isWordChar_of_isLiteral (literal : isLiteral text = true) : ∀ c ∈ text, Token.isWordChar c = true := by
  unfold isLiteral at literal
  refine List.all_eq_true.mp ?_
  split at literal
  · exact all_cons (by decide) (all_of_isUnsigned literal)
  · exact all_of_isUnsigned literal

end Characters

end Number

end Json

end Rollup
