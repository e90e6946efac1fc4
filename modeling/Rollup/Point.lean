import Rollup.Error
import Rollup.Value

/-! One bucket of a row, decoded. -/

namespace Rollup

structure Point where
  timestamp : UInt64
  offset : Nat
  value : Value
  /-- The count cell of the same offset, in rows that have counts. -/
  count? : Option Value
  deriving DecidableEq, Repr

namespace Point

def integer (point : Point) : Except ReadError Int64 :=
  match point.value with
  | .integer n => .ok n
  | .float _ => .error (.wrongKind point.offset .integer)

def float (point : Point) : Except ReadError Binary64 :=
  match point.value with
  | .float x => .ok x
  | .integer _ => .error (.wrongKind point.offset .float)

/-- Samples behind the value: one without a count, and none if the count is negative. -/
def samples (point : Point) : UInt64 :=
  match point.count? with
  | none => 1
  | some (.integer n) => UInt64.ofNat n.toInt.toNat
  | some (.float x) => x.truncate

end Point

end Rollup
