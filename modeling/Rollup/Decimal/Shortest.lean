import Rollup.Binary64

/-! The shortest decimal that reads back as a given double. A double stands for an interval of
reals, those that round to it; its ends belong to it when the mantissa is even. Grids of powers of
ten are tried from coarse to fine, and the first grid with a point in the interval has the fewest
digits. Only the two grid points around the double need a look. -/

namespace Rollup.Decimal

/-- The number `digits * 10 ^ exponent`. -/
structure Scaled where
  digits : Nat
  exponent : Int
  deriving DecidableEq, Repr

/-- Where to go from halfway between two decimals. -/
inductive Tie
  | up
  | even
  deriving DecidableEq, Repr

/-- The reals that round to a double, in units of `2 ^ exponent`; the double itself is `centre`. -/
structure Range where
  low : Nat
  centre : Nat
  high : Nat
  exponent : Int
  closed : Bool
  deriving DecidableEq, Repr

/-- The gap below a power of two is half the gap above it. -/
def Range.around (mantissa : Nat) (exponent : Int) : Range where
  low := 4 * mantissa - (if mantissa = Binary64.hidden ∧ exponent ≠ -1074 then 1 else 2)
  centre := 4 * mantissa
  high := 4 * mantissa + 2
  exponent := exponent - 2
  closed := mantissa % 2 == 0

/-- A positive base raised to the part of an exponent above zero. -/
def scale (base : Nat) (exponent : Int) : Nat := Nat.pow base exponent.toNat

/-- The chosen point, if any, of the grid with spacing `10 ^ exponent`. -/
def Range.onGrid? (range : Range) (tie : Tie) (exponent : Int) : Option Scaled :=
  let unit := scale 2 range.exponent * scale 10 (-exponent)
  let step := scale 2 (-range.exponent) * scale 10 exponent
  let inside (n : Nat) : Bool :=
    if range.closed then range.low * unit ≤ n * step && n * step ≤ range.high * unit
    else range.low * unit < n * step && n * step < range.high * unit
  let below := range.centre * unit / step
  let rest := range.centre * unit % step
  let upper : Bool :=
    match tie with
    | .up => step ≤ 2 * rest
    | .even => step < 2 * rest || (2 * rest == step && below % 2 == 1)
  match inside below, inside (below + 1) with
  | true, true => some ⟨if upper then below + 1 else below, exponent⟩
  | true, false => some ⟨below, exponent⟩
  | false, true => some ⟨below + 1, exponent⟩
  | false, false => none

/-- An exponent whose power of ten is at least `2 ^ n`, and at most one too large near `n`. -/
def ceilingExponent (n : Int) : Int :=
  match n with
  | .ofNat n => (n * 30103 / 100000 : Nat) + 1
  | .negSucc n => -((n + 1) * 30102 / 100000 : Nat)

def Range.search (range : Range) (tie : Tie) : Nat → Int → Option Scaled
  | 0, _ => none
  | grids + 1, exponent =>
    match range.onGrid? tie exponent with
    | some decimal => some decimal
    | none => range.search tie grids (exponent - 1)

/-- Seventeen digits always suffice, so twenty grids from a bound on the number are enough. -/
def shortest (tie : Tie) (mantissa : Nat) (exponent : Int) : Scaled :=
  let start := ceilingExponent ((mantissa.log2 : Int) + 1 + exponent)
  ((Range.around mantissa exponent).search tie 20 start).getD ⟨0, 0⟩

end Rollup.Decimal
