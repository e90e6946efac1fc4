import Rollup.Word

/-! Double precision numbers as their 64-bit patterns, so that every pattern stays what it is. The
magnitude of a finite pattern is a natural number times a power of two, and conversions are exact
arithmetic on these. -/

namespace Rollup

structure Binary64 where
  bits : UInt64
  deriving DecidableEq, Repr

namespace Binary64

/-- The sign bit, `2 ^ 63`. -/
def sign : Nat := 0x8000000000000000

/-- The leading bit of a mantissa, `2 ^ 52`. The pattern leaves it out, and the exponent field
starts in its place. -/
def hidden : Nat := 0x10000000000000

def negative (x : Binary64) : Bool := sign ≤ x.bits.toNat

def exponentField (x : Binary64) : Nat := x.bits.toNat / hidden % 2048

def fractionField (x : Binary64) : Nat := x.bits.toNat % hidden

/-- A pattern from its sign, its exponent field and its fraction. A fraction of `hidden` carries
into the exponent. -/
def ofFields (negative : Bool) (exponent fraction : Nat) : Binary64 :=
  ⟨UInt64.ofNat ((if negative then sign else 0) + exponent * hidden + fraction)⟩

inductive Magnitude
  | notANumber
  | infinite
  /-- The number is `mantissa * 2 ^ exponent`. -/
  | finite (mantissa : Nat) (exponent : Int)
  deriving DecidableEq, Repr

def magnitude (x : Binary64) : Magnitude :=
  if x.exponentField = 2047 then
    if x.fractionField = 0 then .infinite else .notANumber
  else if x.exponentField = 0 then .finite x.fractionField (-1074)
  else .finite (hidden + x.fractionField) ((x.exponentField : Int) - 1075)

def isNaN (x : Binary64) : Bool := x.magnitude == .notANumber

/-- A quotient rounded to the nearest natural number; halves go to the even neighbour. -/
def roundHalfEven (n divisor : Nat) : Nat :=
  let quotient := n / divisor
  let rest := n % divisor
  if 2 * rest < divisor ∨ (2 * rest = divisor ∧ quotient % 2 = 0) then quotient else quotient + 1

/-- The double nearest to a positive natural number below `2 ^ 1023`. -/
def ofPositive (negative : Bool) (n : Nat) : Binary64 :=
  let top := n.log2
  let mantissa :=
    if top ≤ 52 then n * Nat.pow 2 (52 - top) else roundHalfEven n (Nat.pow 2 (top - 52))
  ofFields negative (top + 1023) (mantissa - hidden)

def ofInt (n : Int) : Binary64 :=
  if n = 0 then ⟨0⟩ else ofPositive (n < 0) n.natAbs

/-- The double equal to a single precision pattern. -/
def ofSingle (bits : UInt32) : Binary64 :=
  let negative : Bool := 0x80000000 ≤ bits.toNat
  let exponent := bits.toNat / 0x800000 % 256
  let fraction := bits.toNat % 0x800000
  if exponent = 255 then ofFields negative 2047 (fraction * 0x20000000)
  else if exponent ≠ 0 then ofFields negative (exponent + 896) (fraction * 0x20000000)
  else if fraction = 0 then ofFields negative 0 0
  else
    let top := fraction.log2
    ofFields negative (top + 874) (fraction * Nat.pow 2 (52 - top) - hidden)

/-- The number without its fractional part, as a word: nothing is below zero, numbers past the last
word become it, and what is not a number counts as zero. -/
def truncate (x : Binary64) : UInt64 :=
  if x.negative then 0
  else
    match x.magnitude with
    | .notANumber => 0
    | .infinite => UInt64.ofNat Word.largest
    | .finite mantissa (.ofNat exponent) => Word.cap (mantissa * Nat.pow 2 exponent)
    | .finite mantissa (.negSucc exponent) => Word.cap (mantissa / Nat.pow 2 (exponent + 1))

end Binary64

end Rollup
