import Rollup.Cursor
import Rollup.Json.Number
import Rollup.Json.Printer
import Rollup.RowBuilder

/-! What is printed about a row: a listing of its points with a heading, the same as JSON, or a line
on each column that tells how the column would be read. -/

namespace Rollup

/-- The points read from a row, and how many cells were skipped on the way. -/
structure Reading where
  row : Row
  points : List Point
  skipped : Nat

/-- A row read from the start, or from the first point at or after a timestamp. -/
def Row.read (row : Row) (seek? : Option UInt64) : Reading :=
  let cursor :=
    match seek? with
    | none => Cursor.start row
    | some timestamp => (Cursor.start row).seek row timestamp
  let (points, last) := cursor.drain row
  ⟨row, points, last.skipped⟩

namespace Report

def lines (texts : List String) : String := String.join (texts.map (· ++ "\n"))

def pointLine (point : Point) : String :=
  Nat.repr point.timestamp.toNat ++ "," ++ Nat.repr point.offset ++ "," ++ point.value.text ++
    "," ++ Nat.repr point.samples.toNat

def heading (reading : Reading) : String :=
  "# metric=" ++ Bytes.hex reading.row.key.metric ++ ", base_time=" ++
    Nat.repr reading.row.key.baseTime.toNat ++ ", points=" ++ Nat.repr reading.points.length ++
    ", skipped=" ++ Nat.repr reading.skipped

def csvLines (reading : Reading) : List String :=
  heading reading :: "timestamp,offset,value,count" :: reading.points.map pointLine

def valueJson : Value → Json
  | .integer n => .ofInt n.toInt
  | .float x => .ofBinary64 x

/-- Members stand in the order of their names. -/
def pointJson (point : Point) : Json :=
  .record
    [("count", .ofNat point.samples.toNat), ("offset", .ofNat point.offset),
      ("timestamp", .ofNat point.timestamp.toNat), ("value", valueJson point.value)]

/-- The aggregator is named as the user wrote it. -/
def json (aggregator : String) (reading : Reading) : String :=
  Json.prettyText (.record
    [("aggregator", .ofString aggregator),
      ("base_time", .ofNat reading.row.key.baseTime.toNat),
      ("count", .ofNat reading.points.length),
      ("data", .array (reading.points.map pointJson)),
      ("metric", .ofString (Bytes.hex reading.row.key.metric)),
      ("skipped", .ofNat reading.skipped)])

/-- How a column would be routed and decoded, or the first thing that is wrong with it. -/
def describe (selection : Selection) (column : Column) : String :=
  match selection.classify column.qualifier with
  | .error cause =>
    "qualifier=" ++ Bytes.hex column.qualifier ++ " " ++ (Error.append cause).message
  | .ok route =>
    match Field.read column.qualifier route.encoding.fieldStart with
    | .error cause => "stream=" ++ route.stream.name ++ " " ++ (Error.cell cause).message
    | .ok field =>
      let value :=
        match Value.decode field column.value with
        | .ok value => value.text
        | .error cause => (Error.cell cause).message
      "stream=" ++ route.stream.name ++ " encoding=" ++ route.encoding.text ++ " offset=" ++
        Nat.repr field.offset ++ " width=" ++ Nat.repr field.width ++ " " ++ field.kind.name ++
        " value=" ++ value

def columnLine (selection : Selection) (entry : Column × Nat) : String :=
  "  " ++ Nat.repr entry.2 ++ ": " ++ describe selection entry.1

def inspectionLines (selection : Selection) (columns : List Column) : List String :=
  ("Columns: " ++ Nat.repr columns.length) :: columns.zipIdx.map (columnLine selection)

end Report

end Rollup
