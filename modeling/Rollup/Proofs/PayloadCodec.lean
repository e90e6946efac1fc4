import Rollup.Value

/-! Numbers come back from their payloads. The low bytes of an integer hold it modulo the range of so many
bytes, and within that range the sign settles the rest; a float is its own bit pattern. -/

namespace Rollup

namespace Bytes

theorem toNat_concat (bytes : Bytes) (byte : UInt8) : toNat (bytes ++ [byte]) = toNat bytes * 256 + byte.toNat := by
  simp only [toNat, List.foldl_append, List.foldl_cons, List.foldl_nil]

theorem toNat_ofNat (width n : Nat) : toNat (ofNat width n) = n % Nat.pow 256 width := by
  induction width generalizing n with
  | zero => exact (Nat.mod_one n).symm
  | succ width ih =>
    have digits : n % (256 * Nat.pow 256 width) = n % 256 + 256 * (n / 256 % Nat.pow 256 width) := Nat.mod_mul
    have range : Nat.pow 256 (width + 1) = 256 * Nat.pow 256 width := Nat.mul_comm _ _
    have digit : (UInt8.ofNat (n % 256)).toNat = n % 256 := by
      rw [UInt8.toNat_ofNat']
      omega
    rw [ofNat, toNat_concat, ih, range, digits, digit]
    omega

end Bytes

namespace Value

private theorem signed_lowBytes_eq (width : Nat) (n : Int64) :
    signed (lowBytes width n) = Int.bmod n.toUInt64.toNat (Nat.pow 256 width) := by
  have unsigned := Bytes.toNat_ofNat width n.toUInt64.toNat
  have reduced : (n.toUInt64.toNat : Int) % (Nat.pow 256 width : Nat) =
      ((n.toUInt64.toNat % Nat.pow 256 width : Nat) : Int) := (Int.natCast_emod _ _).symm
  simp only [signed, lowBytes, Bytes.length_ofNat, unsigned, Int.bmod_def, reduced]
  generalize n.toUInt64.toNat % Nat.pow 256 width = low
  generalize Nat.pow 256 width = range
  split <;> split <;> omega

private theorem toInt_eq_bmod (n : Int64) : n.toInt = Int.bmod n.toUInt64.toNat (Nat.pow 256 8) :=
  BitVec.toInt_eq_toNat_bmod n.toBitVec

/-- The low bytes of an integer hold it modulo their range. -/
theorem signed_lowBytes_eq_bmod {width : Nat} (narrow : width ≤ 8) (n : Int64) :
    signed (lowBytes width n) = Int.bmod n.toInt (Nat.pow 256 width) := by
  have divides : Nat.pow 256 width ∣ Nat.pow 256 8 := Nat.pow_dvd_pow 256 narrow
  calc
    signed (lowBytes width n) = Int.bmod n.toUInt64.toNat (Nat.pow 256 width) := signed_lowBytes_eq width n
    _ = Int.bmod (Int.bmod n.toUInt64.toNat (Nat.pow 256 8)) (Nat.pow 256 width) :=
      (Int.bmod_bmod_of_dvd divides).symm
    _ = Int.bmod n.toInt (Nat.pow 256 width) := by rw [← toInt_eq_bmod]

/-- An integer within the range of its bytes survives in them. -/
theorem signed_lowBytes {width : Nat} {n : Int64} (narrow : width ≤ 8)
    (low : -(Nat.pow 256 width : Nat) ≤ 2 * n.toInt) (high : 2 * n.toInt < (Nat.pow 256 width : Nat)) :
    signed (lowBytes width n) = n.toInt := by
  rw [signed_lowBytes_eq_bmod narrow]
  exact Int.bmod_eq_of_le_mul_two (by omega) (by omega)

private theorem signed_of_survives {width : Nat} {n : Int64} (survives : survives width n = true) :
    signed (lowBytes width n) = n.toInt := by
  simpa [Rollup.survives] using survives

theorem signed_encodeInteger (n : Int64) : signed (encodeInteger n) = n.toInt := by
  unfold encodeInteger
  split
  · next one => exact signed_of_survives one
  · split
    · next two => exact signed_of_survives two
    · split
      · next four => exact signed_of_survives four
      · have low := n.le_toInt
        have high := n.toInt_lt
        have range : Nat.pow 256 8 = 18446744073709551616 := rfl
        exact signed_lowBytes (Nat.le_refl 8) (by omega) (by omega)

/-- The patterns of so many bytes, half of them for either sign. -/
theorem pow_eq_limits {width : Nat} (wide : 1 ≤ width) : Nat.pow 256 width = 2 * Nat.pow 2 (8 * width - 1) := by
  have exponent : 8 * width = 8 * width - 1 + 1 := by omega
  calc
    Nat.pow 256 width = Nat.pow (Nat.pow 2 8) width := rfl
    _ = Nat.pow 2 (8 * width) := (Nat.pow_mul 2 8 width).symm
    _ = Nat.pow 2 (8 * width - 1 + 1) := by rw [← exponent]
    _ = 2 * Nat.pow 2 (8 * width - 1) := Nat.mul_comm _ _

theorem signed_encodeIntegerIn {width : Nat} {n : Int64} {payload : Bytes}
    (encoded : encodeIntegerIn width n = .ok payload) : signed payload = n.toInt := by
  unfold encodeIntegerIn Field.checkWidth at encoded
  split at encoded
  · cases encoded
  · next allowed =>
    split at allowed
    · next bounds =>
      simp only [Field.allowsWidth, Bool.and_eq_true, decide_eq_true_eq] at bounds
      have range := pow_eq_limits bounds.1
      simp only at encoded
      split at encoded
      · next inside =>
        cases encoded
        exact signed_lowBytes bounds.2 (by omega) (by omega)
      · cases encoded
    · cases allowed

/-- The payloads that a writer makes for a value. -/
inductive Encodes : Value → Bytes → Prop
  | shortest (n : Int64) : Encodes (.integer n) (encodeInteger n)
  | ofWidth {n : Int64} {width : Nat} {payload : Bytes} (encoded : encodeIntegerIn width n = .ok payload) :
    Encodes (.integer n) payload
  | double (x : Binary64) : Encodes (.float x) (encodeDouble x)

theorem Encodes.ofPayload {value : Value} {payload : Bytes} (encodes : Encodes value payload) :
    Value.ofPayload value.kind payload = value := by
  cases encodes with
  | shortest n =>
    simp only [Value.kind, Value.ofPayload, signed_encodeInteger, Int64.ofInt_toInt]
  | ofWidth encoded =>
    simp only [Value.kind, Value.ofPayload, signed_encodeIntegerIn encoded, Int64.ofInt_toInt]
  | double x =>
    have bound := x.bits.toNat_lt
    have bits : Bytes.toNat (encodeDouble x) = x.bits.toNat := by
      rw [encodeDouble, Bytes.toNat_ofNat]
      exact Nat.mod_eq_of_lt bound
    have length : (encodeDouble x).length ≠ 4 := by
      rw [encodeDouble, Bytes.length_ofNat]
      decide
    simp only [Value.kind, Value.ofPayload, if_neg length, bits, UInt64.ofNat_toNat]

end Value

end Rollup
