import Rollup.Error
import Rollup.Word

/-! Lengths of time, and their short written form: a number and one of the units `s`, `m`, `h`
and `d`. -/

namespace Rollup

/-- Whole seconds and the nanoseconds beyond them. -/
structure Duration where
  seconds : UInt64
  nanos : Nat := 0
  deriving DecidableEq, Repr

namespace Duration

def isZero (duration : Duration) : Bool := duration.seconds == 0 && duration.nanos == 0

def unitSeconds? : Char → Option Nat
  | 's' => some 1
  | 'm' => some 60
  | 'h' => some 3600
  | 'd' => some 86400
  | _ => none

/-- Blanks around the text are ignored. A bad number is reported before a bad unit, and a unit
outside ASCII makes the whole text unreadable. -/
def parse (text : String) : Except IntervalFault Duration :=
  let trimmed := Text.trim text.toList
  match trimmed.getLast? with
  | none => .error (.unreadable (String.ofList trimmed))
  | some unit =>
    if unit.toNat < 128 then
      match Word.ofText? trimmed.dropLast with
      | none => .error (.unreadable (String.ofList trimmed))
      | some amount =>
        match unitSeconds? unit with
        | none => .error (.unknownUnit unit)
        | some factor =>
          if amount.toNat * factor ≤ Word.largest then
            .ok ⟨UInt64.ofNat (amount.toNat * factor), 0⟩
          else
            .error (.tooLarge (String.ofList trimmed))
    else
      .error (.unreadable (String.ofList trimmed))

end Duration

end Rollup
