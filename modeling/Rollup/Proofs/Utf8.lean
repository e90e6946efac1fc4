import Mathlib.Algebra.Ring.Nat
import Rollup.Bytes

/-! Texts as bytes. An ASCII character is one byte, its code; of any other character both ends, which differ, are no
ASCII, and its last byte goes on what another one began. Texts are in the same order by their bytes as by their
characters. -/

namespace Rollup.Text

/-- A byte that no character begins with. -/
def isContinuation (byte : UInt8) : Bool := 128 ≤ byte && byte < 192

private theorem isContinuation_ofNat {n : Nat} (low : 128 ≤ n) (high : n < 192) :
    isContinuation (UInt8.ofNat n) = true := by
  have value : (UInt8.ofNat n).toNat = n := UInt8.toNat_ofNat_of_lt' (Nat.lt_trans high (by decide))
  rw [isContinuation, Bool.and_eq_true, decide_eq_true_eq, decide_eq_true_eq, UInt8.le_iff_toNat_le,
    UInt8.lt_iff_toNat_lt, value]
  exact ⟨low, high⟩

theorem utf8EncodeChar_ascii {c : Char} (ascii : c.toNat < 128) :
    String.utf8EncodeChar c = [UInt8.ofNat c.toNat] := by
  have single : c.utf8Size = 1 := Char.utf8Size_eq_one_iff.mpr (UInt32.le_iff_toNat_le.mpr (Nat.le_of_lt_succ ascii))
  rw [String.utf8EncodeChar_eq_singleton single]
  rfl

theorem toNat_ascii {c : Char} (ascii : c.toNat < 128) : (UInt8.ofNat c.toNat).toNat = c.toNat :=
  UInt8.toNat_ofNat_of_lt' (Nat.lt_trans ascii (by decide))

theorem isContinuation_ascii {c : Char} (ascii : c.toNat < 128) : isContinuation (UInt8.ofNat c.toNat) = false := by
  rw [isContinuation, Bool.and_eq_false_iff, decide_eq_false_iff_not, UInt8.le_iff_toNat_le, toNat_ascii ascii]
  exact .inl (Nat.not_le_of_lt ascii)

/-- A character outside ASCII has several bytes. -/
theorem utf8EncodeChar_wide {c : Char} (wide : ¬ c.toNat < 128) :
    ∃ first middle last, String.utf8EncodeChar c = first :: (middle ++ [last]) ∧ 128 ≤ first.toNat ∧
      isContinuation last = true := by
  have large : ¬ c.val.toNat ≤ 0x7f := fun small => wide (Nat.lt_succ_of_le small)
  fun_cases String.utf8EncodeChar c with
  | case1 _ small => exact absurd small large
  | case2 => exact ⟨_, [], _, rfl, by rw [UInt8.toNat_ofNat']; omega, isContinuation_ofNat (by omega) (by omega)⟩
  | case3 => exact ⟨_, [_], _, rfl, by rw [UInt8.toNat_ofNat']; omega, isContinuation_ofNat (by omega) (by omega)⟩
  | case4 => exact ⟨_, [_, _], _, rfl, by rw [UInt8.toNat_ofNat']; omega, isContinuation_ofNat (by omega) (by omega)⟩

theorem toUTF8_toList (text : String) : text.toUTF8.data.toList = text.toList.flatMap String.utf8EncodeChar := by
  rw [String.toUTF8_eq_toByteArray, ← String.utf8Encode_toList]
  exact List.toList_data_toByteArray

/-- The order of texts by their bytes. -/
def Before (first second : String) : Prop := first.toUTF8.data.toList < second.toUTF8.data.toList

/-- So many digits to the base 64, the highest first, each in a byte of its own that marks it as going on. -/
def continuation : Nat → Nat → Bytes
  | 0, _ => []
  | places + 1, code => UInt8.ofNat (code / 64 ^ places % 64 + 128) :: continuation places code

private theorem cons_lt_cons {a b : Nat} {first second : Bytes} (small : b < 256) (atMost : a ≤ b)
    (rest : a = b → first < second) : UInt8.ofNat a :: first < UInt8.ofNat b :: second := by
  rcases Nat.lt_or_eq_of_le atMost with less | rfl
  · refine List.cons_lt_cons_iff.mpr (.inl ?_)
    rw [UInt8.lt_iff_toNat_lt, UInt8.toNat_ofNat_of_lt' (Nat.lt_trans less small), UInt8.toNat_ofNat_of_lt' small]
    exact less
  · exact List.cons_lt_cons_iff.mpr (.inr ⟨rfl, rest rfl⟩)

/-- Of codes with the same digits in front the smaller one comes first by the digits that are left. -/
private theorem continuation_lt {places first second : Nat} (less : first < second)
    (same : first / 64 ^ places = second / 64 ^ places) (front back : Bytes) :
    continuation places first ++ front < continuation places second ++ back := by
  induction places with
  | zero =>
    rw [Nat.pow_zero, Nat.div_one, Nat.div_one] at same
    omega
  | succ places ih =>
    have cut (code : Nat) : code / 64 ^ (places + 1) = code / 64 ^ places / 64 := by
      rw [Nat.pow_succ, Nat.div_div_eq_div_mul]
    have atMost : first / 64 ^ places ≤ second / 64 ^ places := Nat.div_le_div_right (Nat.le_of_lt less)
    rw [cut, cut] at same
    refine cons_lt_cons (by omega) (by omega) fun digit => ih ?_
    omega

/-- The byte that a character begins with tells how many others follow. It grows with the code, and the others are what
it leaves of the code. -/
private theorem exists_first_byte (c : Char) :
    ∃ places base, String.utf8EncodeChar c = UInt8.ofNat (base + c.toNat / 64 ^ places) :: continuation places c.toNat ∧
      (places = 0 ∧ base = 0 ∧ c.toNat < 0x80 ∨ places = 1 ∧ base = 0xc0 ∧ 0x80 ≤ c.toNat ∧ c.toNat < 0x800 ∨
        places = 2 ∧ base = 0xe0 ∧ 0x800 ≤ c.toNat ∧ c.toNat < 0x10000 ∨
        places = 3 ∧ base = 0xf0 ∧ 0x10000 ≤ c.toNat ∧ c.toNat < 0x110000) := by
  have code : c.toNat = c.val.toNat := rfl
  have bound : c.toNat < 0x110000 := by rcases c.valid with low | high <;> omega
  rw [code] at bound ⊢
  fun_cases String.utf8EncodeChar c with
  | case1 =>
    refine ⟨0, 0, congrArg (fun n => [UInt8.ofNat n]) ?_, by omega⟩
    rw [Nat.pow_zero, Nat.div_one, Nat.zero_add]
  | case2 =>
    have first : c.val.toNat / 64 % 0x20 + 0xc0 = 0xc0 + c.val.toNat / 64 ^ 1 := by omega
    refine ⟨1, 0xc0, ?_, by omega⟩
    simp only [← first, continuation, Nat.pow_zero, Nat.div_one]
    rfl
  | case3 =>
    have first : c.val.toNat / 4096 % 0x10 + 0xe0 = 0xe0 + c.val.toNat / 64 ^ 2 := by omega
    refine ⟨2, 0xe0, ?_, by omega⟩
    simp only [← first, continuation, Nat.pow_zero, Nat.div_one]
    rfl
  | case4 =>
    have first : c.val.toNat / 262144 % 0x08 + 0xf0 = 0xf0 + c.val.toNat / 64 ^ 3 := by omega
    refine ⟨3, 0xf0, ?_, by omega⟩
    simp only [← first, continuation, Nat.pow_zero, Nat.div_one]
    rfl

private theorem utf8EncodeChar_lt {c d : Char} (less : c < d) (first second : Bytes) :
    String.utf8EncodeChar c ++ first < String.utf8EncodeChar d ++ second := by
  have codes : c.toNat < d.toNat := less
  obtain ⟨places, base, encoded, range⟩ := exists_first_byte c
  obtain ⟨places', base', encoded', range'⟩ := exists_first_byte d
  rw [encoded, encoded', List.cons_append, List.cons_append]
  rcases range with ⟨rfl, rfl, range⟩ | ⟨rfl, rfl, range⟩ | ⟨rfl, rfl, range⟩ | ⟨rfl, rfl, range⟩ <;>
    rcases range' with ⟨rfl, rfl, range'⟩ | ⟨rfl, rfl, range'⟩ | ⟨rfl, rfl, range'⟩ | ⟨rfl, rfl, range'⟩
  all_goals refine cons_lt_cons (by omega) (by omega) fun same => ?_
  all_goals first | omega | exact continuation_lt codes (by omega) _ _

private theorem flatMap_utf8_lt {first second : List Char} (less : first < second) :
    first.flatMap String.utf8EncodeChar < second.flatMap String.utf8EncodeChar := by
  induction less with
  | @nil c rest =>
    obtain ⟨byte, bytes, encoded⟩ := List.exists_cons_of_ne_nil (@String.utf8EncodeChar_ne_nil c)
    rw [List.flatMap_nil, List.flatMap_cons, encoded, List.cons_append]
    exact List.nil_lt_cons _ _
  | rel head => exact utf8EncodeChar_lt head _ _
  | cons tail ih => exact List.append_left_lt ih

/-- Texts in the order of their characters are in the order of their bytes. -/
theorem before_iff_lt {first second : String} : Before first second ↔ first < second := by
  have forward {first second : String} (less : first < second) : Before first second := by
    rw [Before, toUTF8_toList, toUTF8_toList]
    exact flatMap_utf8_lt less
  refine ⟨fun before => Decidable.byContradiction fun notLess => ?_, forward⟩
  by_cases same : first = second
  · subst same
    exact List.lt_irrefl _ before
  · have atMost : second ≤ first := String.not_lt.mp notLess
    exact List.lt_asymm before (forward (Std.lt_of_le_of_ne atMost (Ne.symm same)))

end Rollup.Text
