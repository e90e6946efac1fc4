import Rollup.Decimal.Style
import Rollup.Field

/-! Cell payloads. Integers are two's complement in one to eight bytes; floats are single or double
precision patterns. -/

namespace Rollup

inductive Value
  | integer (n : Int64)
  | float (x : Binary64)
  deriving DecidableEq, Repr

namespace Value

/-- The number in two's complement of as many bytes as there are. -/
def signed (payload : Bytes) : Int :=
  let n := Bytes.toNat payload
  let range := Nat.pow 256 payload.length
  if 2 * n < range then n else (n : Int) - range

/-- A payload whose width is already known to suit its kind. -/
def ofPayload (kind : NumberKind) (payload : Bytes) : Value :=
  match kind with
  | .integer => .integer (Int64.ofInt (signed payload))
  | .float =>
    if payload.length = 4 then .float (.ofSingle (UInt32.ofNat (Bytes.toNat payload)))
    else .float ⟨UInt64.ofNat (Bytes.toNat payload)⟩

def decode (field : Field) (payload : Bytes) : Except CellError Value :=
  match field.checkPayload payload with
  | .ok () => .ok (ofPayload field.kind payload)
  | .error cause => .error cause

def kind : Value → NumberKind
  | integer _ => .integer
  | float _ => .float

def isInteger (value : Value) : Bool := value.kind == .integer

/-- The nearest double. -/
def toDouble : Value → Binary64
  | integer n => .ofInt n.toInt
  | float x => x

def text : Value → String
  | integer n => Int.repr n.toInt
  | float x => String.ofList x.listing

end Value

/-- The low bytes of an integer. -/
def lowBytes (width : Nat) (n : Int64) : Bytes := Bytes.ofNat width n.toUInt64.toNat

/-- Whether an integer survives in its low bytes. -/
def survives (width : Nat) (n : Int64) : Bool := Value.signed (lowBytes width n) == n.toInt

/-- An integer in the fewest of one, two, four or eight bytes. -/
def encodeInteger (n : Int64) : Bytes :=
  if survives 1 n then lowBytes 1 n
  else if survives 2 n then lowBytes 2 n
  else if survives 4 n then lowBytes 4 n
  else lowBytes 8 n

/-- An integer in exactly `width` bytes. -/
def encodeIntegerIn (width : Nat) (n : Int64) : Except CellError Bytes :=
  match Field.checkWidth .integer width with
  | .error cause => .error cause
  | .ok () =>
    let limit : Int := Nat.pow 2 (8 * width - 1)
    if -limit ≤ n.toInt ∧ n.toInt < limit then .ok (lowBytes width n)
    else .error (.integerTooWide n width)

def encodeDouble (x : Binary64) : Bytes := Bytes.ofNat 8 x.bits.toNat

def encodeSingle (bits : UInt32) : Bytes := Bytes.ofNat 4 bits.toNat

end Rollup
