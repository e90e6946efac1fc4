import Mathlib.Data.List.Induction
import Rollup.Proofs.FieldCodec
import Rollup.Proofs.PayloadCodec

/-! An integer has one payload for every width that it fits in, and every payload of one to eight bytes is that of an
integer. So the integers of a width and its byte strings are in one-to-one correspondence. -/

namespace Rollup

namespace Bytes

theorem toNat_lt (bytes : Bytes) : toNat bytes < Nat.pow 256 bytes.length := by
  induction bytes using List.reverseRecOn with
  | nil => exact Nat.one_pos
  | append_singleton bytes byte ih =>
    have digit := byte.toNat_lt
    have range : Nat.pow 256 (bytes ++ [byte]).length = Nat.pow 256 bytes.length * 256 := by
      rw [List.length_append]
      rfl
    rw [toNat_concat, range]
    omega

theorem ofNat_toNat (bytes : Bytes) : ofNat bytes.length (toNat bytes) = bytes := by
  induction bytes using List.reverseRecOn with
  | nil => rfl
  | append_singleton bytes byte ih =>
    have digit := byte.toNat_lt
    have front : (toNat bytes * 256 + byte.toNat) / 256 = toNat bytes := by omega
    have last : (toNat bytes * 256 + byte.toNat) % 256 = byte.toNat := by omega
    rw [List.length_append, toNat_concat, List.length_singleton, ofNat, front, last, ih, UInt8.ofNat_toNat]

/-- Only the lowest digits are written. -/
theorem ofNat_mod (width n : Nat) : ofNat width (n % Nat.pow 256 width) = ofNat width n := by
  have length := length_ofNat width n
  have written := ofNat_toNat (ofNat width n)
  rwa [length, toNat_ofNat] at written

end Bytes

namespace Value

/-- The integers that two's complement writes in so many bytes. -/
def FitsIn (width : Nat) (n : Int64) : Prop :=
  (1 ≤ width ∧ width ≤ 8) ∧ -(Nat.pow 2 (8 * width - 1) : Int) ≤ n.toInt ∧ n.toInt < Nat.pow 2 (8 * width - 1)

instance (width : Nat) (n : Int64) : Decidable (FitsIn width n) := inferInstanceAs (Decidable (_ ∧ _))

theorem signed_lowBytes_of_fits {width : Nat} {n : Int64} (fits : FitsIn width n) :
    signed (lowBytes width n) = n.toInt := by
  obtain ⟨⟨wide, narrow⟩, low, high⟩ := fits
  have range := pow_eq_limits wide
  exact signed_lowBytes narrow (by omega) (by omega)

theorem signed_bounds {payload : Bytes} (wide : 1 ≤ payload.length) :
    -(Nat.pow 2 (8 * payload.length - 1) : Int) ≤ signed payload ∧
      signed payload < Nat.pow 2 (8 * payload.length - 1) := by
  have bound := Bytes.toNat_lt payload
  have range := pow_eq_limits wide
  unfold signed
  simp only
  split <;> omega

/-- Two payloads of one width are different integers. -/
theorem signed_injective {first second : Bytes} (length : first.length = second.length)
    (same : signed first = signed second) : first = second := by
  have firstBound := Bytes.toNat_lt first
  have secondBound := Bytes.toNat_lt second
  have unsigned : Bytes.toNat first = Bytes.toNat second := by
    unfold signed at same
    rw [length] at firstBound same
    simp only at same
    generalize Nat.pow 256 second.length = range at firstBound secondBound same
    split at same <;> split at same <;> omega
  rw [← Bytes.ofNat_toNat first, ← Bytes.ofNat_toNat second, length, unsigned]

/-- A payload of so many bytes holds an integer that fits in them. -/
theorem fitsIn_signed {payload : Bytes} (wide : 1 ≤ payload.length) (narrow : payload.length ≤ 8) :
    FitsIn payload.length (Int64.ofInt (signed payload)) ∧ (Int64.ofInt (signed payload)).toInt = signed payload := by
  obtain ⟨low, high⟩ := signed_bounds wide
  have limit : Nat.pow 2 (8 * payload.length - 1) ≤ Nat.pow 2 63 := Nat.pow_le_pow_right (by decide) (by omega)
  have word : Nat.pow 2 63 = 9223372036854775808 := rfl
  have value : (Int64.ofInt (signed payload)).toInt = signed payload := by
    exact Int64.toInt_ofInt_of_le (by omega) (by omega)
  exact ⟨⟨⟨wide, narrow⟩, by omega, by omega⟩, value⟩

theorem survives_iff {width : Nat} {n : Int64} (wide : 1 ≤ width) (narrow : width ≤ 8) :
    survives width n = true ↔ FitsIn width n := by
  rw [survives, beq_iff_eq]
  constructor
  · intro kept
    have bounds := @signed_bounds (lowBytes width n) (by rw [lowBytes, Bytes.length_ofNat]; exact wide)
    rw [kept, lowBytes, Bytes.length_ofNat] at bounds
    exact ⟨⟨wide, narrow⟩, bounds⟩
  · exact signed_lowBytes_of_fits

theorem fitsIn_eight (n : Int64) : FitsIn 8 n := by
  have low := n.le_toInt
  have high := n.toInt_lt
  have limit : Nat.pow 2 (8 * 8 - 1) = 9223372036854775808 := rfl
  exact ⟨by decide, by omega, by omega⟩

theorem encodeIntegerIn_of_width {width : Nat} (allowed : 1 ≤ width ∧ width ≤ 8) (n : Int64) :
    encodeIntegerIn width n =
      if FitsIn width n then .ok (lowBytes width n) else .error (.integerTooWide n width) := by
  have checked : Field.checkWidth .integer width = .ok () :=
    if_pos (by simpa only [Field.allowsWidth, Bool.and_eq_true, decide_eq_true_eq] using allowed)
  simp only [encodeIntegerIn, checked, FitsIn, allowed, and_self, true_and]

theorem encodeIntegerIn_of_not_width {width : Nat} (refused : ¬ (1 ≤ width ∧ width ≤ 8)) (n : Int64) :
    encodeIntegerIn width n = .error (.badWidth .integer width) := by
  have checked : Field.checkWidth .integer width = .error (.badWidth .integer width) :=
    if_neg (by simpa only [Field.allowsWidth, Bool.and_eq_true, decide_eq_true_eq] using refused)
  simp only [encodeIntegerIn, checked]

theorem encodeIntegerIn_ok_iff {width : Nat} {n : Int64} {payload : Bytes} :
    encodeIntegerIn width n = .ok payload ↔ FitsIn width n ∧ payload = lowBytes width n := by
  by_cases allowed : 1 ≤ width ∧ width ≤ 8
  · rw [encodeIntegerIn_of_width allowed]
    split
    · next fits => simp only [fits, true_and, Except.ok.injEq, eq_comm]
    · next outside => simp only [outside, false_and, reduceCtorEq]
  · have outside : ¬ FitsIn width n := fun fits => allowed fits.1
    rw [encodeIntegerIn_of_not_width allowed]
    simp only [outside, false_and, reduceCtorEq]

theorem encodeIntegerIn_isOk_iff {width : Nat} {n : Int64} :
    (∃ payload, encodeIntegerIn width n = .ok payload) ↔ FitsIn width n := by
  simp only [encodeIntegerIn_ok_iff, exists_and_left, exists_eq, and_true]

/-- The integer that a payload holds is encoded as the payload. -/
theorem encodeIntegerIn_signed {payload : Bytes} (wide : 1 ≤ payload.length) (narrow : payload.length ≤ 8) :
    encodeIntegerIn payload.length (.ofInt (signed payload)) = .ok payload := by
  obtain ⟨fits, value⟩ := fitsIn_signed wide narrow
  refine encodeIntegerIn_ok_iff.mpr ⟨fits, signed_injective (Bytes.length_ofNat _ _).symm ?_⟩
  rw [signed_lowBytes_of_fits fits, value]

/-- Of the widths one, two, four and eight the shortest encoding takes the first that the integer fits in. -/
theorem encodeInteger_least (n : Int64) : ∃ least ∈ [1, 2, 4, 8], encodeIntegerIn least n = .ok (encodeInteger n) ∧
    ∀ width ∈ [1, 2, 4, 8], width < least → ¬ FitsIn width n := by
  have one := @survives_iff 1 n (by decide) (by decide)
  have two := @survives_iff 2 n (by decide) (by decide)
  have four := @survives_iff 4 n (by decide) (by decide)
  unfold encodeInteger
  split
  · next fits => exact ⟨1, by simp, encodeIntegerIn_ok_iff.mpr ⟨one.mp fits, rfl⟩, by simp⟩
  · next notOne =>
    rw [one] at notOne
    split
    · next fits => exact ⟨2, by simp, encodeIntegerIn_ok_iff.mpr ⟨two.mp fits, rfl⟩, by simp [notOne]⟩
    · next notTwo =>
      rw [two] at notTwo
      split
      · next fits => exact ⟨4, by simp, encodeIntegerIn_ok_iff.mpr ⟨four.mp fits, rfl⟩, by simp [notOne, notTwo]⟩
      · next notFour =>
        rw [four] at notFour
        exact ⟨8, by simp, encodeIntegerIn_ok_iff.mpr ⟨fitsIn_eight n, rfl⟩, by simp [notOne, notTwo, notFour]⟩

theorem decode_integer {field : Field} {payload : Bytes} (kind : field.kind = .integer)
    (width : field.width = payload.length) :
    decode field payload = .ok (.integer (Int64.ofInt (signed payload))) := by
  have allowed : Field.allowsWidth .integer field.width = true := by
    have wide := field.width_pos
    have narrow := field.width_le
    simp only [Field.allowsWidth, Bool.and_eq_true, decide_eq_true_eq]
    omega
  have fits : field.checkPayload payload = .ok () :=
    Field.checkPayload_ok_iff.mpr ⟨width.symm, by rw [kind]; exact allowed⟩
  simp only [decode, fits, kind, ofPayload]

end Value

end Rollup
