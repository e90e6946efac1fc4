import Rollup.Decimal.Shortest

/-! How a double is written. Two styles are in use: values in listings are always positional, and
numbers in reports are written with a point or, when very large or very small, with an exponent. -/

namespace Rollup.Decimal

/-- Digits with the point moved `exponent` places to the right of their end. -/
def positional (digits : List Char) (exponent : Int) (whole : List Char) : List Char :=
  match exponent with
  | .ofNat zeros => digits ++ List.replicate zeros '0' ++ whole
  | .negSucc places =>
    let places := places + 1
    if places < digits.length then
      digits.take (digits.length - places) ++ '.' :: digits.drop (digits.length - places)
    else
      '0' :: '.' :: List.replicate (places - digits.length) '0' ++ digits

/-- One digit before the point, and a signed power of ten after the rest. -/
def scientific (digits : List Char) (exponent : Int) : List Char :=
  let power := exponent + (digits.length : Int) - 1
  let mantissa :=
    match digits with
    | first :: second :: rest => first :: '.' :: second :: rest
    | short => short
  let sign := if power < 0 then '-' else '+'
  mantissa ++ 'e' :: sign :: Nat.toDigits 10 power.natAbs

structure Style where
  tie : Tie
  /-- What follows a whole number. -/
  whole : List Char
  /-- Powers of ten of the leading digits that are written without an exponent. -/
  plain : Int → Bool

/-- Every number is positional, whole numbers have no point, and a half goes up. -/
def Style.listing : Style where
  tie := .up
  whole := []
  plain := fun _ => true

/-- From `1e-5` up to `1e16` numbers are positional with at least one decimal, and a half goes to
the even neighbour. -/
def Style.report : Style where
  tie := .even
  whole := ['.', '0']
  plain := fun power => -5 ≤ power && power < 16

/-- The number `mantissa * 2 ^ exponent`. -/
def Style.write (style : Style) (mantissa : Nat) (exponent : Int) : List Char :=
  if mantissa = 0 then '0' :: style.whole
  else
    let decimal := shortest style.tie mantissa exponent
    let digits := Nat.toDigits 10 decimal.digits
    if style.plain (decimal.exponent + (digits.length : Int) - 1) then
      positional digits decimal.exponent style.whole
    else
      scientific digits decimal.exponent

end Decimal

open Decimal

/-- A sign before the text of a negative number, zero included. -/
def Binary64.withSign (x : Binary64) (text : List Char) : List Char :=
  if x.negative then '-' :: text else text

/-- The text of a finite number. -/
def Binary64.finiteText? (style : Style) (x : Binary64) : Option (List Char) :=
  match x.magnitude with
  | .finite mantissa exponent => some (x.withSign (style.write mantissa exponent))
  | _ => none

def Binary64.listing (x : Binary64) : List Char :=
  match x.magnitude with
  | .notANumber => "NaN".toList
  | .infinite => x.withSign "inf".toList
  | .finite mantissa exponent => x.withSign (Style.listing.write mantissa exponent)

end Rollup
