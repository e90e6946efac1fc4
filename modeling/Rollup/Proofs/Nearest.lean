import Mathlib.Algebra.Order.Field.Power
import Mathlib.Algebra.Order.Floor.Semifield
import Mathlib.Data.Rat.Floor
import Mathlib.Tactic.Linarith
import Mathlib.Tactic.Ring
import Mathlib.Tactic.Positivity
import Rollup.Proofs.Decimals

/-! Doubles as rational numbers. The decimal that is chosen for a double rounds to it: no other number of a double's
precision is nearer to the decimal. -/

namespace Rollup

namespace Binary64

/-- The number that a finite pattern stands for. -/
def value? (x : Binary64) : Option ℚ :=
  match x.magnitude with
  | .finite mantissa exponent => some ((if x.negative then -1 else 1) * (mantissa * 2 ^ exponent))
  | _ => none

/-- A number of a double's precision. Exponents have no upper bound here, so that what rounds to `2 ^ 1024` does not
round to the last double. -/
def Representable (q : ℚ) : Prop :=
  ∃ (n exponent : ℤ), n.natAbs < 2 * hidden ∧ -1074 ≤ exponent ∧ q = n * 2 ^ exponent

/-- The number rounds to the double: no other number of its precision is nearer, and if one is as near, the double is
the even one. -/
def Nearest (x : Binary64) (q : ℚ) : Prop :=
  ∃ own, x.value? = some own ∧ ∀ other, Representable other → other ≠ own →
    |q - own| < |q - other| ∨ |q - own| = |q - other| ∧ x.bits.toNat % 2 = 0

/-- How a finite pattern writes its number: with the least exponent, or with the hidden bit. -/
structure Canonical (mantissa : ℕ) (exponent : ℤ) : Prop where
  small : mantissa < 2 * hidden
  least : -1074 ≤ exponent
  greatest : exponent ≤ 971
  leading : exponent ≠ -1074 → hidden ≤ mantissa

section Patterns
variable {x : Binary64} {mantissa : ℕ} {exponent : ℤ}

theorem canonical_of_magnitude (finite : x.magnitude = .finite mantissa exponent) : Canonical mantissa exponent := by
  have fraction : x.fractionField < hidden := Nat.mod_lt _ (by decide)
  have field : x.exponentField < 2048 := Nat.mod_lt _ (by decide)
  unfold magnitude at finite
  split_ifs at finite with special null
  · cases finite
    exact ⟨by omega, le_refl _, by omega, fun other => absurd rfl other⟩
  · cases finite
    exact ⟨by omega, by omega, by omega, fun _ => Nat.le_add_right _ _⟩

/-- The last bit of a pattern is that of its mantissa. -/
theorem parity_of_magnitude (finite : x.magnitude = .finite mantissa exponent) :
    x.bits.toNat % 2 = mantissa % 2 := by
  unfold magnitude fractionField hidden at finite
  split_ifs at finite <;> cases finite <;> omega

theorem value?_of_magnitude (finite : x.magnitude = .finite mantissa exponent) :
    x.value? = some ((if x.negative then -1 else 1) * ((mantissa : ℚ) * 2 ^ exponent)) := by
  rw [value?, finite]

end Patterns

end Binary64

namespace Decimal.Range

def bottom (range : Range) : ℚ := range.low * 2 ^ range.exponent

def top (range : Range) : ℚ := range.high * 2 ^ range.exponent

/-- The number is in the range, which has its ends or has not. -/
def Holds (range : Range) (q : ℚ) : Prop :=
  if range.closed then range.bottom ≤ q ∧ q ≤ range.top else range.bottom < q ∧ q < range.top

end Decimal.Range

namespace Binary64

section Spacing
variable {mantissa : ℕ} {exponent power n : ℤ}

open Decimal (Range)

private theorem zpow_shift {base exponent : ℤ} (above : base ≤ exponent) :
    ∃ factor : ℤ, (2 : ℚ) ^ exponent = factor * 2 ^ base := by
  obtain ⟨steps, rfl⟩ := Int.le.dest above
  exact ⟨2 ^ steps, by rw [zpow_add₀ (by norm_num), zpow_natCast]; push_cast; ring⟩

/-- A range is in quarters of a unit. -/
private theorem zpow_around : (2 : ℚ) ^ (Range.around mantissa exponent).exponent = 2 ^ exponent / 4 := by
  rw [Range.around, zpow_sub₀ (by norm_num)]
  norm_num

/-- What has a smaller exponent is below every number that needs the hidden bit, by half a unit at least. -/
private theorem le_of_lower (small : n.natAbs < 2 * hidden) (lower : power < exponent) :
    (n : ℚ) * 2 ^ power ≤ (hidden - 1 / 2) * 2 ^ exponent := by
  have unit : (0 : ℚ) < 2 ^ exponent := by positivity
  have half : (2 : ℚ) ^ power ≤ 2 ^ exponent / 2 := by
    rw [div_eq_mul_inv, ← zpow_sub_one₀ (two_ne_zero : (2 : ℚ) ≠ 0)]
    exact zpow_le_zpow_right₀ (by norm_num) (by omega)
  have bound : (n : ℚ) ≤ 2 * hidden - 1 := by
    have : n ≤ 2 * (hidden : ℤ) - 1 := by omega
    exact_mod_cast this
  have top : (0 : ℚ) ≤ 2 * hidden - 1 := by norm_num [hidden]
  calc (n : ℚ) * 2 ^ power ≤ (2 * hidden - 1) * 2 ^ power := by gcongr
    _ ≤ (2 * hidden - 1) * (2 ^ exponent / 2) := by gcongr
    _ = (hidden - 1 / 2) * 2 ^ exponent := by ring

/-- The next number above is a whole unit away. -/
private theorem succ_le (canonical : Canonical mantissa exponent) (small : n.natAbs < 2 * hidden)
    (least : -1074 ≤ power) (above : (mantissa : ℚ) * 2 ^ exponent < n * 2 ^ power) :
    ((mantissa : ℚ) + 1) * 2 ^ exponent ≤ n * 2 ^ power := by
  have unit : (0 : ℚ) < 2 ^ exponent := by positivity
  -- A number of the same spacing or a wider one is a multiple of the unit.
  rcases le_or_gt exponent power with higher | lower
  · obtain ⟨factor, shifted⟩ := zpow_shift higher
    rw [shifted, ← mul_assoc] at above ⊢
    have next : (mantissa : ℤ) < n * factor := by exact_mod_cast lt_of_mul_lt_mul_right above unit.le
    gcongr
    exact_mod_cast next
  · have leading : (hidden : ℚ) ≤ mantissa := by exact_mod_cast canonical.leading (by omega)
    have lowered := le_of_lower small lower
    nlinarith

/-- The middle between a number and any number below it is not above the lower end of its range. -/
private theorem middle_le_bottom (canonical : Canonical mantissa exponent) (positive : 0 < mantissa)
    (small : n.natAbs < 2 * hidden) (least : -1074 ≤ power) (below : (n : ℚ) * 2 ^ power < mantissa * 2 ^ exponent) :
    (mantissa : ℚ) * 2 ^ exponent + n * 2 ^ power ≤ 2 * (Range.around mantissa exponent).bottom := by
  have unit : (0 : ℚ) < 2 ^ exponent := by positivity
  have whole : (4 * mantissa - 2 : ℚ) ≤ (Range.around mantissa exponent).low := by
    have : 4 * mantissa ≤ (Range.around mantissa exponent).low + 2 := by
      simp only [Range.around]
      split <;> omega
    have : (4 * mantissa : ℚ) ≤ (Range.around mantissa exponent).low + 2 := by exact_mod_cast this
    linarith
  rw [Range.bottom, zpow_around]
  rcases le_or_gt exponent power with higher | lower
  · obtain ⟨factor, shifted⟩ := zpow_shift higher
    rw [shifted, ← mul_assoc] at below ⊢
    have next : (n * factor : ℤ) < mantissa := by exact_mod_cast lt_of_mul_lt_mul_right below unit.le
    have next : (n * factor : ℚ) ≤ mantissa - 1 := by
      have : (n * factor : ℤ) ≤ mantissa - 1 := by omega
      exact_mod_cast this
    nlinarith
  · have lowered := le_of_lower small lower
    have normal : exponent ≠ -1074 := by omega
    -- Below a power of two the gap is half a unit, and the range ends at a quarter.
    rcases (canonical.leading normal).eq_or_lt with rfl | above
    · have half : (Range.around hidden exponent).low = 4 * hidden - 1 := by
        simp only [Range.around, ne_eq, normal, not_false_iff, and_self, if_true]
      rw [half]
      push_cast [hidden] at lowered ⊢
      norm_num at lowered ⊢
      linarith
    · have next : (hidden : ℚ) + 1 ≤ mantissa := by exact_mod_cast above
      nlinarith

/-- The middle between a number and any number above it is not below the upper end of its range. -/
private theorem top_le_middle (canonical : Canonical mantissa exponent) (small : n.natAbs < 2 * hidden)
    (least : -1074 ≤ power) (above : (mantissa : ℚ) * 2 ^ exponent < n * 2 ^ power) :
    2 * (Range.around mantissa exponent).top ≤ mantissa * 2 ^ exponent + n * 2 ^ power := by
  have next := succ_le canonical small least above
  rw [Range.top, zpow_around]
  simp only [Range.around]
  push_cast
  linarith

section Middle
variable {q own other : ℚ}

private theorem abs_sub_le_of_middle (below : other < own → own + other ≤ 2 * q)
    (above : own < other → 2 * q ≤ own + other) : |q - own| ≤ |q - other| := by
  refine sq_le_sq.mp (sub_nonneg.mp ?_)
  have product : (q - other) ^ 2 - (q - own) ^ 2 = (own - other) * (2 * q - (own + other)) := by ring
  rw [product]
  rcases lt_trichotomy other own with less | rfl | greater
  · exact mul_nonneg (by linarith) (by linarith [below less])
  · rw [sub_self, zero_mul]
  · exact mul_nonneg_of_nonpos_of_nonpos (by linarith) (by linarith [above greater])

private theorem abs_sub_lt_of_middle (different : other ≠ own) (below : other < own → own + other < 2 * q)
    (above : own < other → 2 * q < own + other) : |q - own| < |q - other| := by
  refine lt_of_le_of_ne (abs_sub_le_of_middle (fun less => (below less).le) fun greater => (above greater).le) ?_
  intro equal
  rcases abs_eq_abs.mp equal with same | across
  · exact different (by linarith)
  · rcases lt_or_gt_of_ne different with less | greater
    · linarith [below less]
    · linarith [above greater]

end Middle

/-- A number in the range of another is nearer to it than to any third one. Only at an end of the range it may be as
near to a neighbour, and the range has its ends only if the mantissa is even. -/
theorem nearer_of_holds (canonical : Canonical mantissa exponent) (positive : 0 < mantissa) {q other : ℚ}
    (holds : (Range.around mantissa exponent).Holds q) (representable : Representable other)
    (different : other ≠ mantissa * 2 ^ exponent) :
    |q - mantissa * 2 ^ exponent| < |q - other| ∨
      |q - mantissa * 2 ^ exponent| = |q - other| ∧ mantissa % 2 = 0 := by
  obtain ⟨n, power, small, least, rfl⟩ := representable
  have low := middle_le_bottom canonical positive small least
  have high := top_le_middle canonical small least
  unfold Range.Holds at holds
  split at holds
  · next closed =>
    have even : mantissa % 2 = 0 := beq_iff_eq.mp closed
    have near : |q - mantissa * 2 ^ exponent| ≤ |q - n * 2 ^ power| := by
      apply abs_sub_le_of_middle
      · intro below
        linarith [low below, holds.1]
      · intro above
        linarith [high above, holds.2]
    exact near.lt_or_eq.imp_right fun equal => ⟨equal, even⟩
  · left
    apply abs_sub_lt_of_middle different
    · intro below
      linarith [low below, holds.1]
    · intro above
      linarith [high above, holds.2]

end Spacing

end Binary64

namespace Decimal

/-- The number that a decimal stands for. -/
def Scaled.value (decimal : Scaled) : ℚ := decimal.digits * 10 ^ decimal.exponent

section Grids
variable {range : Range} {tie : Tie} {exponent : ℤ} {decimal : Scaled}

private theorem scale_eq {base : ℕ} (positive : 0 < base) (exponent : ℤ) :
    (scale base exponent : ℚ) = base ^ exponent * scale base (-exponent) := by
  have nonzero : (base : ℚ) ≠ 0 := Nat.cast_ne_zero.mpr positive.ne'
  have part (exponent : ℤ) : (scale base exponent : ℚ) = base ^ (exponent.toNat : ℤ) := by
    rw [zpow_natCast]
    exact Nat.cast_pow base exponent.toNat
  rw [part, part, ← zpow_add₀ nonzero]
  congr 1
  omega

/-- The ends of a range and the points of a grid are compared as whole numbers of a small unit. -/
private theorem exists_unit (range : Range) (exponent : ℤ) :
    ∃ unit : ℚ, 0 < unit ∧ ((scale 2 range.exponent * scale 10 (-exponent) : ℕ) : ℚ) = 2 ^ range.exponent * unit ∧
      ((scale 2 (-range.exponent) * scale 10 exponent : ℕ) : ℚ) = 10 ^ exponent * unit := by
  refine ⟨scale 2 (-range.exponent) * scale 10 (-exponent), ?_, ?_, ?_⟩
  · exact_mod_cast Nat.mul_pos (scale_pos (by decide) _) (scale_pos (by decide) _)
  · rw [Nat.cast_mul, scale_eq (by decide : 0 < 2) range.exponent]
    push_cast
    ring
  · rw [Nat.cast_mul, scale_eq (by decide : 0 < 10) exponent]
    push_cast
    ring

/-- The point of a grid that is chosen is in the range. -/
private theorem holds_of_onGrid? (found : range.onGrid? tie exponent = some decimal) : range.Holds decimal.value := by
  unfold Range.onGrid? at found
  extract_lets unit step inside below rest upper at found
  obtain ⟨small, positive, unitEq, stepEq⟩ := exists_unit range exponent
  have holds {n : ℕ} (isInside : inside n = true) : range.Holds (n * 10 ^ exponent) := by
    have le_iff (a : ℕ) : (a * unit ≤ n * step ↔ (a : ℚ) * 2 ^ range.exponent ≤ n * 10 ^ exponent) ∧
        (n * step ≤ a * unit ↔ (n : ℚ) * 10 ^ exponent ≤ a * 2 ^ range.exponent) := by
      have left : ((a * unit : ℕ) : ℚ) = a * 2 ^ range.exponent * small := by
        rw [Nat.cast_mul a, unitEq, mul_assoc]
      have right : ((n * step : ℕ) : ℚ) = n * 10 ^ exponent * small := by
        rw [Nat.cast_mul n, stepEq, mul_assoc]
      rw [← Nat.cast_le (α := ℚ), ← Nat.cast_le (α := ℚ), left, right]
      exact ⟨mul_le_mul_iff_left₀ positive, mul_le_mul_iff_left₀ positive⟩
    simp only [inside] at isInside
    unfold Range.Holds
    split at isInside
    · next closed =>
      simp only [Bool.and_eq_true, decide_eq_true_eq, (le_iff _).1, (le_iff _).2] at isInside
      rwa [if_pos closed]
    · next opened =>
      simp only [Bool.and_eq_true, decide_eq_true_eq, ← not_le, (le_iff _).1, (le_iff _).2] at isInside
      rw [if_neg opened]
      simpa only [Range.bottom, Range.top, not_le] using isInside
  split at found
  · next belowInside aboveInside =>
    cases found
    simp only [Scaled.value]
    split
    · exact holds aboveInside
    · exact holds belowInside
  · next belowInside _ =>
    cases found
    exact holds belowInside
  · next _ aboveInside =>
    cases found
    exact holds aboveInside
  · cases found

/-- On a grid that is no coarser than the range, the point next below the centre is in the range. -/
private theorem exists_onGrid? (tie : Tie) (below : range.low < range.centre) (above : range.centre < range.high)
    (fine : (10 : ℚ) ^ exponent ≤ 2 ^ range.exponent) : ∃ decimal, range.onGrid? tie exponent = some decimal := by
  obtain ⟨small, positive, unitEq, stepEq⟩ := exists_unit range exponent
  unfold Range.onGrid?
  extract_lets unit step inside under rest upper
  have stepPos : 0 < step := Nat.mul_pos (scale_pos (by decide) _) (scale_pos (by decide) _)
  have stepLe : step ≤ unit := by
    rw [← Nat.cast_le (α := ℚ), unitEq, stepEq]
    gcongr
  have isInside : inside under = true := by
    have floor : under * step ≤ range.centre * unit := Nat.div_mul_le_self _ _
    have next : range.centre * unit < under * step + step := Nat.lt_div_mul_add stepPos
    have lower : (range.low + 1) * unit ≤ range.centre * unit := Nat.mul_le_mul_right _ below
    have higher : range.centre * unit < range.high * unit := Nat.mul_lt_mul_of_pos_right above (by omega)
    simp only [inside]
    split
    · simp only [Bool.and_eq_true, decide_eq_true_eq]
      constructor <;> linarith
    · simp only [Bool.and_eq_true, decide_eq_true_eq]
      constructor <;> linarith
  rw [isInside]
  cases inside (under + 1) <;> exact ⟨_, rfl⟩

/-- The search ends at the first grid that is no coarser than the range, if not before. -/
private theorem exists_search (tie : Tie) (below : range.low < range.centre) (above : range.centre < range.high)
    {grids : ℕ} (fine : (10 : ℚ) ^ (exponent - grids) ≤ 2 ^ range.exponent) :
    ∃ decimal, range.search tie (grids + 1) exponent = some decimal := by
  induction grids generalizing exponent with
  | zero =>
    obtain ⟨decimal, found⟩ := exists_onGrid? tie below above (by simpa using fine)
    exact ⟨decimal, by rw [Range.search, found]⟩
  | succ grids ih =>
    rw [Range.search]
    cases range.onGrid? tie exponent with
    | some decimal => exact ⟨decimal, rfl⟩
    | none =>
      refine ih ?_
      rwa [sub_sub, add_comm, ← Nat.cast_succ]

end Grids

/-- Over the exponents of doubles the bound on a power of two is less than two powers of ten too large. -/
private theorem ceiling_table :
    (∀ n < 1025, 10 ^ (n * 30103 / 100000 + 1) ≤ 20 * 2 ^ n) ∧
      ∀ n < 1074, 2 ^ (n + 1) ≤ 20 * 10 ^ ((n + 1) * 30102 / 100000) := by
  decide +kernel

private theorem zpow_ceilingExponent_le {n : ℤ} (least : -1074 ≤ n) (greatest : n ≤ 1024) :
    (10 : ℚ) ^ ceilingExponent n ≤ 20 * 2 ^ n := by
  cases n with
  | ofNat n =>
    have entry : ((10 ^ (n * 30103 / 100000 + 1) : ℕ) : ℚ) ≤ (20 * 2 ^ n : ℕ) :=
      Nat.cast_le.mpr (ceiling_table.1 n (Nat.lt_succ_of_le (Int.ofNat_le.mp greatest)))
    push_cast at entry
    rw [ceilingExponent, Int.ofNat_eq_natCast, zpow_natCast]
    exact_mod_cast entry
  | negSucc n =>
    have entry : ((2 ^ (n + 1) : ℕ) : ℚ) ≤ (20 * 10 ^ ((n + 1) * 30102 / 100000) : ℕ) :=
      Nat.cast_le.mpr (ceiling_table.2 n (by omega))
    push_cast at entry
    rw [ceilingExponent, zpow_neg, zpow_natCast, zpow_negSucc, inv_le_iff_one_le_mul₀ (by positivity)]
    rw [mul_assoc, ← div_eq_inv_mul, mul_div_assoc', one_le_div (by positivity)]
    exact entry

section Doubles
variable {mantissa : ℕ} {exponent : ℤ} (canonical : Binary64.Canonical mantissa exponent) (positive : 0 < mantissa)
include canonical positive

/-- The last of twenty grids is finer than the range around a double. -/
private theorem last_grid_le :
    (10 : ℚ) ^ (ceilingExponent ((mantissa.log2 : ℤ) + 1 + exponent) - (19 : ℕ)) ≤
      2 ^ (Range.around mantissa exponent).exponent := by
  have least := canonical.least
  have greatest := canonical.greatest
  have small : mantissa < 2 ^ 53 := canonical.small
  have bits : mantissa.log2 < 53 := (Nat.log2_lt positive.ne').mpr small
  have ceiling := zpow_ceilingExponent_le (n := (mantissa.log2 : ℤ) + 1 + exponent) (by omega) (by omega)
  have unit : (0 : ℚ) < 2 ^ (exponent - 2) := by positivity
  have wide : (2 : ℚ) ^ ((mantissa.log2 : ℤ) + 1 + exponent) ≤ 2 ^ 55 * 2 ^ (exponent - 2) := by
    rw [show (2 : ℚ) ^ 55 * 2 ^ (exponent - 2) = 2 ^ (55 + (exponent - 2)) from (zpow_add₀ (by norm_num) 55 _).symm]
    exact zpow_le_zpow_right₀ (by norm_num) (by omega)
  rw [zpow_sub₀ (by norm_num), div_le_iff₀ (by positivity)]
  calc (10 : ℚ) ^ ceilingExponent ((mantissa.log2 : ℤ) + 1 + exponent)
      ≤ 20 * 2 ^ ((mantissa.log2 : ℤ) + 1 + exponent) := ceiling
    _ ≤ 20 * (2 ^ 55 * 2 ^ (exponent - 2)) := by gcongr
    _ ≤ 2 ^ (exponent - 2) * 10 ^ ((19 : ℕ) : ℤ) := by
      norm_num
      linarith

/-- The decimal that is chosen for a number is in the range around it. -/
theorem holds_shortest (tie : Tie) : (Range.around mantissa exponent).Holds (shortest tie mantissa exponent).value := by
  have below : (Range.around mantissa exponent).low < (Range.around mantissa exponent).centre := by
    simp only [Range.around]
    split <;> omega
  have above : (Range.around mantissa exponent).centre < (Range.around mantissa exponent).high :=
    Nat.lt_add_of_pos_right (by decide)
  obtain ⟨decimal, found⟩ := exists_search tie below above (last_grid_le canonical positive)
  obtain ⟨grid, onGrid⟩ := onGrid?_of_search found
  rw [shortest, found]
  exact holds_of_onGrid? onGrid

end Doubles

end Decimal

namespace Binary64

variable {x : Binary64} {mantissa : ℕ} {exponent : ℤ}

private theorem Representable.neg {q : ℚ} (representable : Representable q) : Representable (-q) := by
  obtain ⟨n, power, small, least, rfl⟩ := representable
  exact ⟨-n, power, by rwa [Int.natAbs_neg], least, by push_cast; ring⟩

/-- Whichever way halves go, the decimal that is chosen for a double rounds to it once it has the sign of the double. -/
theorem nearest_shortest (tie : Decimal.Tie) (finite : x.magnitude = .finite mantissa exponent)
    (positive : 0 < mantissa) :
    x.Nearest ((if x.negative then -1 else 1) * (Decimal.shortest tie mantissa exponent).value) := by
  refine ⟨_, value?_of_magnitude finite, fun other representable different => ?_⟩
  have canonical := canonical_of_magnitude finite
  have holds := Decimal.holds_shortest canonical positive tie
  generalize (Decimal.shortest tie mantissa exponent).value = q at holds ⊢
  rw [parity_of_magnitude finite]
  split_ifs at different ⊢
  · have mirrored : -other ≠ mantissa * 2 ^ exponent := fun same => different (by linarith)
    have own : -1 * q - -1 * (mantissa * 2 ^ exponent) = -(q - mantissa * 2 ^ exponent) := by ring
    have others : -1 * q - other = -(q - -other) := by ring
    rw [own, others, abs_neg, abs_neg]
    exact nearer_of_holds canonical positive holds representable.neg mirrored
  · rw [one_mul] at different
    rw [one_mul, one_mul]
    exact nearer_of_holds canonical positive holds representable different

/-- Zero rounds to zero, with either sign. -/
theorem nearest_zero (finite : x.magnitude = .finite 0 exponent) : x.Nearest 0 := by
  refine ⟨0, ?_, fun other _ different => .inl ?_⟩
  · rw [value?_of_magnitude finite, Nat.cast_zero, zero_mul, mul_zero]
  · rw [sub_self, abs_zero, zero_sub, abs_neg]
    exact abs_pos.mpr different

/-- A double without its fraction: nothing below zero, and the last word for what is past it. -/
theorem toNat_truncate_of_value? {q : ℚ} (finite : x.value? = some q) :
    x.truncate.toNat = min ⌊q⌋₊ Word.largest := by
  unfold value? at finite
  split at finite
  · next mantissa exponent shape =>
    cases finite
    unfold truncate
    split_ifs with negative
    · have below : -1 * ((mantissa : ℚ) * 2 ^ exponent) ≤ 0 := by
        rw [neg_one_mul, neg_nonpos]
        positivity
      rw [Nat.floor_of_nonpos below]
      rfl
    · rw [shape, one_mul]
      cases exponent with
      | ofNat steps =>
        have whole : (mantissa : ℚ) * 2 ^ (Int.ofNat steps) = (mantissa * Nat.pow 2 steps : ℕ) := by
          rw [Int.ofNat_eq_natCast, zpow_natCast]
          exact_mod_cast rfl
        rw [whole, Nat.floor_natCast, Word.toNat_cap]
      | negSucc steps =>
        have quotient : (mantissa : ℚ) * 2 ^ (Int.negSucc steps) = mantissa / (Nat.pow 2 (steps + 1) : ℕ) := by
          rw [zpow_negSucc, div_eq_mul_inv]
          exact_mod_cast rfl
        rw [quotient, Nat.floor_div_eq_div, Word.toNat_cap]
  · cases finite

theorem toNat_truncate_of_not_finite (other : x.value? = none) :
    x.truncate.toNat = if x.magnitude = .infinite ∧ x.negative = false then Word.largest else 0 := by
  unfold value? at other
  unfold truncate
  cases x.negative with
  | true => rw [if_pos rfl, if_neg (fun both => by cases both.2)]; rfl
  | false =>
    rw [if_neg (by decide)]
    cases shape : x.magnitude with
    | notANumber => rfl
    | infinite => rfl
    | finite mantissa exponent =>
      rw [shape] at other
      cases other

end Binary64

end Rollup
