import Rollup.Field

/-! Cells packed into two byte strings: their fields, two bytes each, and their payloads one after
the other. Nothing separates the payloads; a field tells the width of its own. -/

namespace Rollup

structure CellStream where
  fields : Bytes
  payloads : Bytes
  deriving DecidableEq, Repr

namespace CellStream

def empty : CellStream := ⟨[], []⟩

/-- Number of cells. -/
def size (stream : CellStream) : Nat := stream.fields.length / Field.size

def fieldAt? (stream : CellStream) (start : Nat) : Option Field := Field.at? stream.fields start

def fieldList (stream : CellStream) : List Field := Field.list stream.fields

def push (stream : CellStream) (field : Field) (payload : Bytes) : CellStream :=
  ⟨stream.fields ++ field.bytes, stream.payloads ++ payload⟩

/-- The stream without its last cell. The last field tells how many payload bytes go with it. -/
def pop (stream : CellStream) : CellStream :=
  if stream.fields.length < Field.size then stream
  else
    let start := stream.fields.length - Field.size
    match stream.fieldAt? start with
    | none => stream
    | some last =>
      ⟨stream.fields.take start, stream.payloads.take (stream.payloads.length - last.width)⟩

/-- The bytes of a payload, if the stream reaches that far. -/
def payloadAt? (stream : CellStream) (start width : Nat) : Option Bytes :=
  if start + width ≤ stream.payloads.length then
    some ((stream.payloads.drop start).take width)
  else none

theorem bound_of_fieldAt? {stream : CellStream} {start : Nat} {field : Field}
    (found : stream.fieldAt? start = some field) : start + Field.size ≤ stream.fields.length :=
  Field.bound_of_at? found

end CellStream

end Rollup
