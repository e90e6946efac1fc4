import Rollup.Error

/-! The two-byte field of a cell: a bucket offset of twelve bits, a bit that marks floats, and three
bits for the width of the payload less one. -/

namespace Rollup

structure Field where
  raw : UInt16
  deriving DecidableEq, Repr

namespace Field

/-- Bytes that a field takes up. -/
def size : Nat := 2

def maxOffset : Nat := 4095

def offset (field : Field) : Nat := field.raw.toNat / 16

def flags (field : Field) : Nat := field.raw.toNat % 16

def width (field : Field) : Nat := field.raw.toNat % 8 + 1

def kind (field : Field) : NumberKind :=
  if field.raw.toNat / 8 % 2 = 0 then .integer else .float

def isInteger (field : Field) : Bool := field.kind == .integer

/-- Integers take one to eight bytes, floats four or eight. -/
def allowsWidth : NumberKind → Nat → Bool
  | .integer, width => 1 ≤ width && width ≤ 8
  | .float, width => width == 4 || width == 8

def checkWidth (kind : NumberKind) (width : Nat) : Except CellError Unit :=
  if allowsWidth kind width then .ok () else .error (.badWidth kind width)

/-- The field for a payload of the given kind and width. An offset past the last one is reported
before a bad width. -/
def ofParts (offset width : Nat) (kind : NumberKind) : Except CellError Field :=
  if offset > maxOffset then .error (.offsetTooLarge offset)
  else
    match checkWidth kind width with
    | .error cause => .error cause
    | .ok () =>
      let mark := if kind = .float then 8 else 0
      .ok ⟨UInt16.ofNat (offset * 16 + mark + (width - 1))⟩

def bytes (field : Field) : Bytes := Bytes.ofNat size field.raw.toNat

/-- The field stored at a byte position. -/
def at? (bytes : Bytes) (start : Nat) : Option Field :=
  match bytes.drop start with
  | high :: low :: _ => some ⟨UInt16.ofNat (high.toNat * 256 + low.toNat)⟩
  | _ => none

/-- The fields stored one after the other; a lone last byte is none. -/
def list : Bytes → List Field
  | high :: low :: rest => ⟨UInt16.ofNat (high.toNat * 256 + low.toNat)⟩ :: list rest
  | _ => []

def read (bytes : Bytes) (start : Nat) : Except CellError Field :=
  match at? bytes start with
  | some field => .ok field
  | none => .error (.truncated start size bytes.length)

/-- Whether a payload is one that the field announces. -/
def checkPayload (field : Field) (payload : Bytes) : Except CellError Unit :=
  if payload.length ≠ field.width then .error (.lengthMismatch field.width payload.length)
  else checkWidth field.kind field.width

theorem width_pos (field : Field) : 0 < field.width := by unfold width; omega

theorem width_le (field : Field) : field.width ≤ 8 := by unfold width; omega

theorem offset_le (field : Field) : field.offset ≤ maxOffset := by
  have bound := field.raw.toNat_lt
  unfold offset maxOffset
  omega

/-- A stored field lies within the bytes. -/
theorem bound_of_at? {bytes : Bytes} {start : Nat} {field : Field}
    (found : at? bytes start = some field) : start + size ≤ bytes.length := by
  unfold at? at found
  split at found
  · next high low rest shape =>
    have length := congrArg List.length shape
    simp only [List.length_drop, List.length_cons] at length
    unfold size
    omega
  · simp at found

end Field

/-- The parts of a field, named. -/
def Field.text (field : Field) : String :=
  "Qualifier \x7b offset: " ++ Nat.repr field.offset ++ ", width: " ++ Nat.repr field.width ++
    ", integer: " ++ (if field.isInteger then "true" else "false") ++ " \x7d"

end Rollup
