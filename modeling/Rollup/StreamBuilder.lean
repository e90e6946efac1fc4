import Rollup.CellStream

/-! A stream under construction. Cells arrive in increasing order of offset; a cell that repeats the
last offset is an error, or else the earlier written of the two stays. -/

namespace Rollup

structure StreamBuilder where
  cells : CellStream
  lastOffset? : Option Nat
  /-- When the last cell was written. -/
  lastWritten : UInt64
  deriving DecidableEq, Repr

namespace StreamBuilder

def empty : StreamBuilder := ⟨.empty, none, 0⟩

def store (builder : StreamBuilder) (field : Field) (payload : Bytes) (written : UInt64) :
    StreamBuilder :=
  ⟨builder.cells.push field payload, some field.offset, written⟩

/-- The result of appending a cell, and the stream after it. Of two cells written at the same time the
one that arrives last stays. -/
def append (builder : StreamBuilder) (stream : StreamKind) (fixDuplicates : Bool) (field : Field)
    (payload : Bytes) (written : UInt64) : Except AppendError Unit × StreamBuilder :=
  match builder.lastOffset? with
  | none => (.ok (), builder.store field payload written)
  | some last =>
    if last < field.offset then (.ok (), builder.store field payload written)
    else if field.offset ≠ last ∨ !fixDuplicates then
      (.error (.outOfOrder stream field.offset last), builder)
    else if builder.lastWritten < written then (.ok (), builder)
    else
      let replaced : StreamBuilder := { builder with cells := builder.cells.pop }
      (.ok (), replaced.store field payload written)

end StreamBuilder

end Rollup
