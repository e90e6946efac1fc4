import Rollup.Column
import Rollup.Json.Printer
import Rollup.Json.Reader
import Rollup.Json.Record

/-! Dumps of columns in JSON. Byte strings are arrays of numbers. -/

namespace Rollup

def Bytes.toJson (bytes : Bytes) : Json := .array (bytes.map fun byte => .ofNat byte.toNat)

def Bytes.ofJson? (value : Json) : Option Bytes := value.list? Json.byte?

namespace Column

def toJson (column : Column) : Json :=
  .record
    [("row_key", Bytes.toJson column.rowKey), ("qualifier", Bytes.toJson column.qualifier),
      ("value", Bytes.toJson column.value), ("timestamp", .ofNat column.timestamp.toNat)]

def ofJson? (value : Json) : Option Column :=
  match value.fields? ["row_key", "qualifier", "value", "timestamp"] with
  | some [some rowKey, some qualifier, some payload, some timestamp] =>
    match Bytes.ofJson? rowKey, Bytes.ofJson? qualifier, Bytes.ofJson? payload,
        timestamp.word? with
    | some rowKey, some qualifier, some payload, some timestamp =>
      some ⟨rowKey, qualifier, payload, timestamp⟩
    | _, _, _, _ => none
  | _ => none

def dump (columns : List Column) : Json := .array (columns.map toJson)

def ofDump? (text : String) : Option (List Column) :=
  (Json.parse? text).bind fun value => value.list? ofJson?

end Column

end Rollup
