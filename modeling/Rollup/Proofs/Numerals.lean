import Rollup.Proofs.Nearest

/-! Numerals, read back. A numeral stands for a rational number, whether it is laid out with a point, with an exponent
or with neither. What is written for a double stands for a number that rounds to it. -/

namespace Rollup

namespace Decimal

/-- Digits, with a point among them or without. -/
def plain? (text : List Char) : Option ℚ :=
  match text.splitOn '.' with
  | [whole] => (Word.digits? whole).map fun n : ℕ => (n : ℚ)
  | [whole, decimals] => (Word.digits? (whole ++ decimals)).map fun n : ℕ => (n : ℚ) / 10 ^ decimals.length
  | _ => none

/-- Digits behind a sign. -/
def power? : List Char → Option ℤ
  | '+' :: digits => (Word.digits? digits).map fun n : ℕ => (n : ℤ)
  | '-' :: digits => (Word.digits? digits).map fun n : ℕ => -(n : ℤ)
  | _ => none

/-- A number, times a power of ten if there is one. -/
def unsigned? (text : List Char) : Option ℚ :=
  match text.splitOn 'e' with
  | [number] => plain? number
  | [number, power] =>
    match plain? number, power? power with
    | some q, some power => some (q * 10 ^ power)
    | _, _ => none
  | _ => none

def number? : List Char → Option ℚ
  | '-' :: text => (unsigned? text).map fun q => -q
  | text => unsigned? text

open Json (Number.areDigits Number.areDigits_iff Number.areDigits_toDigits Number.isUnsigned)

section Digits
variable {text whole decimals : List Char} {n : ℕ} {q : ℚ}

private theorem digits?_of_isDigit (filled : text ≠ []) (digits : ∀ c ∈ text, c.isDigit = true) :
    Word.digits? text = some (Nat.ofDigitChars 10 text 0) :=
  if_pos ⟨filled, List.all_eq_true.mpr digits⟩

private theorem not_mem_of_isDigit {c : Char} (mark : c.isDigit = false) (digits : ∀ c ∈ text, c.isDigit = true) :
    c ∉ text := by
  intro member
  rw [digits c member] at mark
  cases mark

/-- A text without an exponent that stands for the number. -/
private structure Plain (text : List Char) (q : ℚ) : Prop where
  apart : 'e' ∉ text
  reads : plain? text = some q

private theorem Plain.unsigned? (plain : Plain text q) : unsigned? text = some q := by
  rw [Decimal.unsigned?, List.splitOn_eq_singleton plain.apart]
  exact plain.reads

private theorem plain_digits (filled : text ≠ []) (digits : ∀ c ∈ text, c.isDigit = true) :
    Plain text (Nat.ofDigitChars 10 text 0 : ℕ) := by
  refine ⟨not_mem_of_isDigit (by decide) digits, ?_⟩
  rw [plain?, List.splitOn_eq_singleton (not_mem_of_isDigit (by decide) digits)]
  simp only [digits?_of_isDigit filled digits, Option.map_some]

private theorem plain_point (digits : ∀ c ∈ whole ++ decimals, c.isDigit = true) (filled : whole ++ decimals ≠ []) :
    Plain (whole ++ '.' :: decimals) (Nat.ofDigitChars 10 (whole ++ decimals) 0 / 10 ^ decimals.length) := by
  obtain ⟨front, back⟩ := List.forall_mem_append.mp digits
  constructor
  · simp [not_mem_of_isDigit (c := 'e') (by decide) front, not_mem_of_isDigit (c := 'e') (by decide) back]
  · rw [plain?, List.splitOn_append_cons_self_of_not_mem (not_mem_of_isDigit (by decide) front),
      List.splitOn_eq_singleton (not_mem_of_isDigit (by decide) back)]
    simp only [digits?_of_isDigit filled digits, Option.map_some]

private theorem isDigit_toDigits (n : ℕ) : ∀ c ∈ Nat.toDigits 10 n, c.isDigit = true :=
  (Number.areDigits_iff.mp (Number.areDigits_toDigits n)).2

private theorem ofDigitChars_zeros (count n : ℕ) :
    Nat.ofDigitChars 10 (List.replicate count '0' ++ Nat.toDigits 10 n) 0 = n := by
  rw [Nat.ofDigitChars_append, Nat.ofDigitChars_replicate_zero, Nat.mul_zero,
    Nat.ofDigitChars_toDigits (by decide) (by decide)]

/-- What may follow a whole number says nothing more of it. -/
private theorem plain_whole (shape : whole = [] ∨ whole = ['.', '0']) (filled : text ≠ [])
    (digits : ∀ c ∈ text, c.isDigit = true) : Plain (text ++ whole) (Nat.ofDigitChars 10 text 0 : ℕ) := by
  rcases shape with rfl | rfl
  · rw [List.append_nil]
    exact plain_digits filled digits
  · have allDigits : ∀ c ∈ text ++ ['0'], c.isDigit = true :=
      List.forall_mem_append.mpr ⟨digits, List.forall_mem_singleton.mpr rfl⟩
    have plain := plain_point allDigits (by simp)
    have same : ((Nat.ofDigitChars 10 (text ++ ['0']) 0 : ℕ) : ℚ) / 10 ^ ['0'].length =
        (Nat.ofDigitChars 10 text 0 : ℕ) := by
      rw [Nat.ofDigitChars_append, Nat.ofDigitChars_cons, Nat.ofDigitChars_nil]
      push_cast
      simp
    rwa [same] at plain

private theorem plain_positional (shape : whole = [] ∨ whole = ['.', '0']) (n : ℕ) (exponent : ℤ) :
    Plain (positional (Nat.toDigits 10 n) exponent whole) (n * 10 ^ exponent) := by
  have digits := isDigit_toDigits n
  have value := Nat.ofDigitChars_toDigits (b := 10) (n := n) (by decide) (by decide)
  cases exponent with
  | ofNat zeros =>
    have plain := plain_whole shape (List.append_ne_nil_of_left_ne_nil Nat.toDigits_ne_nil _)
      (List.forall_mem_append.mpr ⟨digits, @isDigit_zeros zeros⟩)
    rw [Nat.ofDigitChars_append, value, Nat.ofDigitChars_replicate_zero] at plain
    rw [Int.ofNat_eq_natCast, zpow_natCast, mul_comm]
    exact_mod_cast plain
  | negSucc places =>
    rw [zpow_negSucc, ← div_eq_mul_inv]
    simp only [positional]
    split
    · next short =>
      have plain := @plain_point ((Nat.toDigits 10 n).take ((Nat.toDigits 10 n).length - (places + 1)))
        ((Nat.toDigits 10 n).drop ((Nat.toDigits 10 n).length - (places + 1)))
        (by rwa [List.take_append_drop]) (by rw [List.take_append_drop]; exact Nat.toDigits_ne_nil)
      rwa [List.take_append_drop, value, List.length_drop, Nat.sub_sub_self short.le] at plain
    · next long =>
      generalize missing : places + 1 - (Nat.toDigits 10 n).length = zeros
      have plain := @plain_point ['0'] (List.replicate zeros '0' ++ Nat.toDigits 10 n)
        (List.forall_mem_append.mpr ⟨List.forall_mem_singleton.mpr rfl,
          List.forall_mem_append.mpr ⟨isDigit_zeros, digits⟩⟩) (by simp)
      have leading : Nat.ofDigitChars 10 (['0'] ++ (List.replicate zeros '0' ++ Nat.toDigits 10 n)) 0 = n :=
        ofDigitChars_zeros (zeros + 1) n
      have length : (List.replicate zeros '0' ++ Nat.toDigits 10 n).length = places + 1 := by
        rw [List.length_append, List.length_replicate]
        omega
      rwa [leading, length] at plain

private theorem power?_natAbs (power : ℤ) :
    power? ((if power < 0 then '-' else '+') :: Nat.toDigits 10 power.natAbs) = some power := by
  split_ifs
  · simp only [power?, Word.digits?_toDigits, Option.map_some, Option.some.injEq]
    omega
  · simp only [power?, Word.digits?_toDigits, Option.map_some, Option.some.injEq]
    omega

private theorem unsigned?_power {number : List Char} (plain : Plain number q) (power : ℤ) :
    unsigned? (number ++ 'e' :: (if power < 0 then '-' else '+') :: Nat.toDigits 10 power.natAbs) =
      some (q * 10 ^ power) := by
  have apart : 'e' ∉ (if power < 0 then '-' else '+') :: Nat.toDigits 10 power.natAbs := by
    have rest := not_mem_of_isDigit (c := 'e') (by decide) (isDigit_toDigits power.natAbs)
    split_ifs <;> simp [rest]
  rw [unsigned?, List.splitOn_append_cons_self_of_not_mem plain.apart, List.splitOn_eq_singleton apart]
  simp only [plain.reads, power?_natAbs]

private theorem unsigned?_scientific (n : ℕ) (exponent : ℤ) :
    unsigned? (scientific (Nat.toDigits 10 n) exponent) = some ((n : ℚ) * 10 ^ exponent) := by
  have filled : Nat.toDigits 10 n ≠ [] := Nat.toDigits_ne_nil
  have digits := isDigit_toDigits n
  have value := Nat.ofDigitChars_toDigits (b := 10) (n := n) (by decide) (by decide)
  unfold scientific
  generalize Nat.toDigits 10 n = text at filled digits value ⊢
  match text, filled with
  | [first], filled =>
    have read := unsigned?_power (plain_digits filled digits) (exponent + [first].length - 1)
    rw [value] at read
    refine read.trans ?_
    rw [List.length_singleton, Nat.cast_one, add_sub_cancel_right]
  | first :: second :: rest, filled =>
    have read := unsigned?_power (@plain_point [first] (second :: rest) digits filled)
      (exponent + (first :: second :: rest).length - 1)
    rw [show [first] ++ second :: rest = first :: second :: rest from rfl, value] at read
    refine read.trans ?_
    have shifted : exponent + ((first :: second :: rest).length : ℤ) - 1 =
        exponent + ((second :: rest).length : ℕ) := by
      rw [List.length_cons, Nat.cast_succ]
      ring
    rw [shifted, zpow_add₀ (by norm_num), zpow_natCast, mul_comm (10 ^ exponent), ← mul_assoc,
      div_mul_cancel₀ _ (by positivity)]

end Digits

/-- The text of a number stands for the decimal that is chosen for it. -/
theorem unsigned?_write {style : Style} (shape : style.whole = [] ∨ style.whole = ['.', '0']) {mantissa : ℕ}
    (positive : 0 < mantissa) (exponent : ℤ) :
    unsigned? (style.write mantissa exponent) = some (shortest style.tie mantissa exponent).value := by
  rw [Style.write, if_neg positive.ne']
  dsimp only
  split
  · exact (plain_positional shape _ _).unsigned?
  · exact unsigned?_scientific _ _

theorem unsigned?_write_zero {style : Style} (shape : style.whole = [] ∨ style.whole = ['.', '0']) (exponent : ℤ) :
    unsigned? (style.write 0 exponent) = some 0 := by
  have plain := plain_whole shape (List.cons_ne_nil '0' []) (List.forall_mem_singleton.mpr rfl)
  rw [Style.write, if_pos rfl]
  exact plain.unsigned?

theorem number?_of_isUnsigned {text : List Char} (unsigned : Number.isUnsigned text = true) :
    number? text = unsigned? text := by
  unfold number?
  split
  · cases unsigned
  · rfl

theorem number?_repr (n : ℤ) : number? n.repr.toList = some (n : ℚ) := by
  have natural (n : ℕ) : unsigned? (Nat.toDigits 10 n) = some (n : ℚ) := by
    have plain := plain_digits Nat.toDigits_ne_nil (isDigit_toDigits n)
    rw [Nat.ofDigitChars_toDigits (by decide) (by decide)] at plain
    exact plain.unsigned?
  cases n with
  | ofNat n =>
    rw [show (Int.ofNat n).repr = n.repr from rfl, Nat.toList_repr,
      number?_of_isUnsigned (Json.Number.isUnsigned_toDigits n), natural]
    rfl
  | negSucc n =>
    rw [show (Int.negSucc n).repr = "-" ++ (n + 1).repr from rfl, String.toList_append, Nat.toList_repr]
    change (unsigned? (Nat.toDigits 10 (n + 1))).map _ = _
    rw [natural, Option.map_some, Int.cast_negSucc]

end Decimal

namespace Binary64

open Decimal

/-- The text stands for a number that rounds to the double, and has a minus sign if the double is negative; so zero
keeps its sign as well. -/
structure Numeral (x : Binary64) (text : List Char) : Prop where
  reads : ∃ q, number? text = some q ∧ x.Nearest q
  signed : text.head? = some '-' ↔ x.negative = true

variable {x : Binary64} {mantissa : ℕ} {exponent : ℤ} {text : List Char}

private theorem follows_of_whole {whole : List Char} (shape : whole = [] ∨ whole = ['.', '0']) :
    Json.Number.Follows whole := by
  rcases shape with rfl | rfl
  · exact .nil
  · exact .decimals rfl

/-- What is written for a finite double is a numeral for it. -/
theorem numeral_write {style : Style} (shape : style.whole = [] ∨ style.whole = ['.', '0'])
    (finite : x.magnitude = .finite mantissa exponent) : x.Numeral (x.withSign (style.write mantissa exponent)) := by
  have unsigned := Style.isUnsigned_write (follows_of_whole shape) mantissa exponent
  obtain ⟨q, read, nearest⟩ : ∃ q, unsigned? (style.write mantissa exponent) = some q ∧
      x.Nearest ((if x.negative then -1 else 1) * q) := by
    rcases mantissa.eq_zero_or_pos with rfl | positive
    · exact ⟨0, unsigned?_write_zero shape exponent, by rw [mul_zero]; exact nearest_zero finite⟩
    · exact ⟨_, unsigned?_write shape positive exponent, nearest_shortest style.tie finite positive⟩
  have first : (style.write mantissa exponent).head? ≠ some '-' := by
    intro minus
    obtain ⟨rest, shape⟩ := List.head?_eq_some_iff.mp minus
    rw [shape] at unsigned
    cases unsigned
  unfold withSign
  split_ifs at nearest ⊢ with negative
  · refine ⟨⟨_, ?_, nearest⟩, by simp [negative]⟩
    rw [number?, read, neg_one_mul, Option.map_some]
  · refine ⟨⟨_, ?_, nearest⟩, by simp [first, negative]⟩
    rw [number?_of_isUnsigned unsigned, read, one_mul]

end Binary64

end Rollup
