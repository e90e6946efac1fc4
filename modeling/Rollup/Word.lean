/-! Unsigned 64-bit words. Their arithmetic saturates, so that a result past the largest word is the
largest word, or is checked, so that there is no such result. -/

namespace Rollup.Word

def largest : Nat := 0xFFFFFFFFFFFFFFFF

theorem toNat_le_largest (word : UInt64) : word.toNat ≤ largest := Nat.le_of_lt_succ word.toNat_lt

/-- The word nearest to a natural number. -/
def cap (n : Nat) : UInt64 := UInt64.ofNat (min n largest)

theorem toNat_cap (n : Nat) : (cap n).toNat = min n largest := by
  have bound : min n largest < 2 ^ 64 := by unfold largest; omega
  rw [cap, UInt64.toNat_ofNat', Nat.mod_eq_of_lt bound]

def add (a b : UInt64) : UInt64 := cap (a.toNat + b.toNat)

def mul (a b : UInt64) : UInt64 := cap (a.toNat * b.toNat)

/-- The sum of two words, if it is a word. -/
def sum? (a b : UInt64) : Option UInt64 :=
  if a.toNat + b.toNat ≤ largest then some (a + b) else none

theorem sum?_eq_none_iff {a b : UInt64} : sum? a b = none ↔ largest < a.toNat + b.toNat := by
  unfold sum?
  split
  · next fits => simp [Nat.not_lt.mpr fits]
  · next wide => simp [Nat.lt_of_not_le wide]

theorem sum?_eq_some_iff {a b c : UInt64} : sum? a b = some c ↔ c.toNat = a.toNat + b.toNat := by
  have bound := c.toNat_lt
  unfold sum? largest
  split
  · next fits =>
    have added : (a + b).toNat = a.toNat + b.toNat := by
      rw [UInt64.toNat_add, Nat.mod_eq_of_lt (by omega)]
    rw [Option.some.injEq, ← UInt64.toNat_inj, added, eq_comm]
  · next wide =>
    constructor
    · rintro ⟨⟩
    · omega

theorem exists_sum? {a b : UInt64} (fits : a.toNat + b.toNat ≤ largest) :
    ∃ c, sum? a b = some c ∧ c.toNat = a.toNat + b.toNat :=
  have summed : sum? a b = some (a + b) := if_pos fits
  ⟨a + b, summed, sum?_eq_some_iff.mp summed⟩

/-- The digits of a natural number, read as one; nothing else is a number here. -/
def digits? (text : List Char) : Option Nat :=
  if text ≠ [] ∧ text.all Char.isDigit then some (Nat.ofDigitChars 10 text 0) else none

/-- A word in decimal: at most one leading plus sign, then digits, leading zeros included. -/
def ofText? (text : List Char) : Option UInt64 :=
  match digits? (match text with | '+' :: rest => rest | _ => text) with
  | some n => if n ≤ largest then some (UInt64.ofNat n) else none
  | none => none

end Rollup.Word
