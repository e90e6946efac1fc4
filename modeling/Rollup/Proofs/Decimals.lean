import Rollup.Decimal.Style
import Rollup.Proofs.Json.Literals

/-! The texts of doubles. In either style a finite double is written as a literal: digits without leading zeros, which
have to be other than zero when zeros follow them. -/

namespace Rollup

namespace Decimal

open Json

section Digits
variable {range : Range} {tie : Tie} {exponent : Int} {decimal : Scaled}

theorem scale_pos {base : Nat} (positive : 0 < base) (exponent : Int) : 0 < scale base exponent :=
  Nat.pow_pos positive

/-- A range above zero has no zero in it. -/
private theorem onGrid?_pos (low : 0 < range.low) (found : range.onGrid? tie exponent = some decimal) :
    0 < decimal.digits := by
  unfold Range.onGrid? at found
  extract_lets unit step inside below rest upper at found
  have unitPos : 0 < unit := Nat.mul_pos (scale_pos (by decide) _) (scale_pos (by decide) _)
  have lowPos : 0 < range.low * unit := Nat.mul_pos low unitPos
  -- Zero is below the range, whether the range has its ends or not.
  have positive (n : Nat) (isInside : inside n = true) : 0 < n := by
    apply Nat.pos_of_ne_zero
    rintro rfl
    simp only [inside, Nat.zero_mul] at isInside
    split at isInside
    · simp only [Bool.and_eq_true, decide_eq_true_eq] at isInside
      omega
    · simp only [Bool.and_eq_true, decide_eq_true_eq] at isInside
      omega
  split at found
  · next belowInside _ =>
    cases found
    have belowPos := positive below belowInside
    simp only
    split
    · exact Nat.succ_pos below
    · exact belowPos
  · next belowInside _ =>
    cases found
    exact positive below belowInside
  · cases found
    exact Nat.succ_pos below
  · cases found

/-- What a search finds is on one of its grids. -/
theorem onGrid?_of_search {grids : Nat} (found : range.search tie grids exponent = some decimal) :
    ∃ grid, range.onGrid? tie grid = some decimal := by
  induction grids generalizing exponent with
  | zero => cases found
  | succ grids ih =>
    unfold Range.search at found
    split at found
    · next onGrid =>
      cases found
      exact ⟨exponent, onGrid⟩
    · exact ih found

/-- The digits for a number that is not zero are not zero, unless no grid is fine enough. -/
theorem shortest_pos (tie : Tie) {mantissa : Nat} (positive : 0 < mantissa) (exponent : Int) :
    0 < (shortest tie mantissa exponent).digits ∨ (shortest tie mantissa exponent).exponent = 0 := by
  have low : 0 < (Range.around mantissa exponent).low := by
    simp only [Range.around]
    split <;> omega
  simp only [shortest]
  generalize found : (Range.around mantissa exponent).search tie 20 _ = decimal?
  cases decimal? with
  | none => exact .inr rfl
  | some decimal =>
    obtain ⟨grid, onGrid⟩ := onGrid?_of_search found
    exact .inl (onGrid?_pos low onGrid)

end Digits

section Layout
variable {digits whole : List Char} {exponent : Int}

private theorem head?_front {c : Char} {front rest : List Char} (filled : front ≠ []) (first : front.head? ≠ some c) :
    (front ++ rest).head? ≠ some c := by
  cases front with
  | nil => exact absurd rfl filled
  | cons _ _ => exact first

private theorem areDigits_append {first second : List Char} (filled : first ++ second ≠ [])
    (allFirst : ∀ c ∈ first, c.isDigit = true) (allSecond : ∀ c ∈ second, c.isDigit = true) :
    Number.areDigits (first ++ second) = true :=
  Number.areDigits_iff.mpr ⟨filled, List.forall_mem_append.mpr ⟨allFirst, allSecond⟩⟩

theorem isDigit_zeros {count : Nat} : ∀ c ∈ List.replicate count '0', c.isDigit = true := by
  intro c member
  rw [(List.mem_replicate.mp member).2]
  rfl

theorem isUnsigned_positional {n : Nat} (follows : Number.Follows whole) (nonzero : 0 < n ∨ exponent = 0) :
    Number.isUnsigned (positional (Nat.toDigits 10 n) exponent whole) = true := by
  obtain ⟨filled, allDigits⟩ := Number.areDigits_iff.mp (Number.areDigits_toDigits n)
  cases exponent with
  | ofNat zeros =>
    refine Number.isUnsigned_append ?_ follows
    rcases nonzero with positive | whole
    · exact Number.isWhole_of_head? (areDigits_append (by simp [filled]) allDigits isDigit_zeros)
        (head?_front filled (Number.head?_toDigits positive))
    · cases whole
      rw [List.replicate_zero, List.append_nil]
      exact Number.isWhole_toDigits n
  | negSucc places =>
    have positive : 0 < n := nonzero.resolve_right (by simp)
    simp only [positional]
    generalize digitsShape : Nat.toDigits 10 n = digits at filled allDigits
    split
    · next short =>
      -- The point stands among the digits, so the first of them stays in front.
      have front : 0 < digits.length - (places + 1) := Nat.sub_pos_of_lt short
      have whole : Number.isWhole (digits.take (digits.length - (places + 1))) = true := by
        refine Number.isWhole_of_head? (Number.areDigits_iff.mpr ⟨?_, fun c member => ?_⟩) ?_
        · exact List.ne_nil_of_length_pos (by rw [List.length_take]; omega)
        · exact allDigits c (List.mem_of_mem_take member)
        · rw [List.head?_take, if_neg (Nat.ne_of_gt front), ← digitsShape]
          exact Number.head?_toDigits positive
      have decimals : Number.areDigits (digits.drop (digits.length - (places + 1))) = true := by
        refine Number.areDigits_iff.mpr ⟨?_, fun c member => allDigits c (List.mem_of_mem_drop member)⟩
        exact List.ne_nil_of_length_pos (by rw [List.length_drop]; omega)
      exact Number.isUnsigned_append whole (.decimals decimals)
    · have decimals := @areDigits_append (List.replicate (places + 1 - digits.length) '0') _ (by simp [filled])
        isDigit_zeros allDigits
      exact @Number.isUnsigned_append ['0'] _ rfl (.decimals decimals)

/-- A power of ten, which may follow a whole number or its decimals. -/
private theorem isExponent_power (power : Int) :
    Number.isExponent ('e' :: (if power < 0 then '-' else '+') :: Nat.toDigits 10 power.natAbs) = true := by
  split <;> exact Number.areDigits_toDigits _

private theorem isWhole_single {c : Char} (digit : c.isDigit = true) : Number.isWhole [c] = true := by
  by_cases zero : c = '0'
  · rw [zero]
    rfl
  · exact Number.isWhole_of_head? (Number.areDigits_iff.mpr ⟨List.cons_ne_nil _ _, by simp [digit]⟩) (by simp [zero])

theorem isUnsigned_scientific (areDigits : Number.areDigits digits = true) :
    Number.isUnsigned (scientific digits exponent) = true := by
  obtain ⟨filled, allDigits⟩ := Number.areDigits_iff.mp areDigits
  have power := isExponent_power (exponent + (digits.length : Int) - 1)
  have apart {rest : List Char} : ∀ c ∈ ('e' :: rest).head?, c.isDigit = false := by
    intro c first
    cases first
    rfl
  match digits, filled, allDigits with
  | [first], _, allDigits =>
    exact Number.isUnsigned_append (isWhole_single (allDigits first List.mem_cons_self)) ⟨apart, power⟩
  | first :: second :: rest, _, allDigits =>
    obtain ⟨firstDigit, others⟩ := List.forall_mem_cons.mp allDigits
    have decimals : Number.areDigits (second :: rest) = true :=
      Number.areDigits_iff.mpr ⟨List.cons_ne_nil _ _, others⟩
    exact @Number.isUnsigned_append [first] _ (isWhole_single firstDigit) (Number.Follows.point decimals apart power)

end Layout

/-- The text of the number is a literal without a sign. -/
theorem Style.isUnsigned_write {style : Style} (follows : Number.Follows style.whole) (mantissa : Nat)
    (exponent : Int) : Number.isUnsigned (style.write mantissa exponent) = true := by
  unfold Style.write
  split
  · exact @Number.isUnsigned_append ['0'] _ rfl follows
  · next nonzero =>
    simp only
    split
    · exact isUnsigned_positional follows (shortest_pos style.tie (Nat.pos_of_ne_zero nonzero) exponent)
    · exact isUnsigned_scientific (Number.areDigits_toDigits _)

theorem Style.follows_listing : Number.Follows Style.listing.whole := .nil

theorem Style.follows_report : Number.Follows Style.report.whole := .decimals rfl

end Decimal

namespace Binary64

open Decimal Json

variable {x : Binary64} {text : List Char}

private theorem isLiteral_withSign (unsigned : Number.isUnsigned text = true) :
    Number.isLiteral (x.withSign text) = true := by
  unfold withSign
  split
  · exact unsigned
  · exact Number.isLiteral_of_isUnsigned unsigned

/-- A finite number is reported as a literal. -/
theorem isLiteral_finiteText? {literal : List Char} (finite : x.finiteText? Style.report = some literal) :
    Number.isLiteral literal = true := by
  unfold finiteText? at finite
  split at finite
  · cases finite
    exact isLiteral_withSign (Style.isUnsigned_write Style.follows_report _ _)
  · cases finite

/-- A listed number, finite or not, is a word. -/
theorem isWordChar_listing : ∀ c ∈ x.listing, Token.isWordChar c = true := by
  unfold listing
  split
  · exact List.all_eq_true.mp (by decide)
  · unfold withSign
    split <;> exact List.all_eq_true.mp (by decide)
  · exact Number.isWordChar_of_isLiteral (isLiteral_withSign (Style.isUnsigned_write Style.follows_listing _ _))

end Binary64

end Rollup
