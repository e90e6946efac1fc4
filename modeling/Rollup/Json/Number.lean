import Rollup.Binary64
import Rollup.Decimal.Style
import Rollup.Json.Value

/-! Number literals of JSON: a whole part without leading zeros, and optionally a sign, a fraction
and an exponent. -/

namespace Rollup.Json

namespace Number

def areDigits (text : List Char) : Bool := !text.isEmpty && text.all Char.isDigit

def isExponent : List Char → Bool
  | [] => true
  | mark :: rest =>
    (mark == 'e' || mark == 'E') &&
      match rest with
      | '+' :: digits | '-' :: digits => areDigits digits
      | digits => areDigits digits

def isFraction : List Char → Bool
  | '.' :: rest =>
    areDigits (rest.takeWhile Char.isDigit) && isExponent (rest.dropWhile Char.isDigit)
  | rest => isExponent rest

def isWhole (digits : List Char) : Bool :=
  digits == ['0'] || areDigits digits && digits.head? != some '0'

def isUnsigned (text : List Char) : Bool :=
  isWhole (text.takeWhile Char.isDigit) && isFraction (text.dropWhile Char.isDigit)

def isLiteral : List Char → Bool
  | '-' :: rest => isUnsigned rest
  | literal => isUnsigned literal

end Number

/-- Numbers that are not finite have no literal and become `null`. -/
def ofBinary64 (x : Binary64) : Json :=
  match x.finiteText? Decimal.Style.report with
  | some literal => .number literal
  | none => .null

end Rollup.Json
