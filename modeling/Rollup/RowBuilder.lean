import Rollup.Column
import Rollup.Qualifier
import Rollup.Row
import Rollup.Settings
import Rollup.StreamBuilder

/-! A row under construction. The first column gives the row its key; every column is then checked
against the key, routed to a stream by its qualifier, and appended there. -/

namespace Rollup

structure RowBuilder where
  selection : Selection
  layout : KeyLayout
  granularity : Granularity
  resolution : Resolution
  fixDuplicates : Bool
  key? : Option RowKey
  values : StreamBuilder
  /-- Stays empty unless the selection is counted. -/
  counts : StreamBuilder
  deriving DecidableEq

namespace RowBuilder

/-- The cells that a query selects under the given settings. -/
def select (query : Query) (settings : Settings) : Except ConfigError Selection :=
  match settings.idFor query.aggregator.stored with
  | .error cause => .error cause
  | .ok primaryId =>
    if query.aggregator.needsCount then
      match settings.idFor .count with
      | .error cause => .error cause
      | .ok countId => .ok ⟨query.aggregator.stored, primaryId, some countId⟩
    else .ok ⟨query.aggregator.stored, primaryId, none⟩

/-- An empty row. The granularity is checked first, then the layout, then the ids. -/
def create (query : Query) (settings : Settings) : Except ConfigError RowBuilder :=
  match query.granularity.validate with
  | .error fault => .error (.badInterval fault)
  | .ok () =>
    match settings.layout.validate with
    | .error cause => .error cause
    | .ok () =>
      match select query settings with
      | .error cause => .error cause
      | .ok selection =>
        .ok
          { selection
            layout := settings.layout
            granularity := query.granularity
            resolution := settings.resolution
            fixDuplicates := settings.fixDuplicates
            key? := none
            values := .empty
            counts := .empty }

def stream (builder : RowBuilder) : StreamKind → StreamBuilder
  | .value => builder.values
  | .count => builder.counts

def setStream (builder : RowBuilder) (kind : StreamKind) (stream : StreamBuilder) : RowBuilder :=
  match kind with
  | .value => { builder with values := stream }
  | .count => { builder with counts := stream }

/-- Stores a column's cell, whatever row the column is from. Like all that is done to a builder, this
has a result and leaves a builder, also when it fails. -/
def append (builder : RowBuilder) (column : Column) : Except Error Unit × RowBuilder :=
  match builder.selection.classify column.qualifier with
  | .error cause => (.error (.append cause), builder)
  | .ok route =>
    match Field.read column.qualifier route.encoding.fieldStart with
    | .error cause => (.error (.cell cause), builder)
    | .ok field =>
      match field.checkPayload column.value with
      | .error cause => (.error (.cell cause), builder)
      | .ok () =>
        let (result, stream) := (builder.stream route.stream).append route.stream
          builder.fixDuplicates field column.value column.timestamp
        (result.mapError .append, builder.setStream route.stream stream)

/-- Takes the key of a row from its first column. The key stays also when the cell is refused. -/
def setFirst (builder : RowBuilder) (column : Column) : Except Error Unit × RowBuilder :=
  match builder.key? with
  | some _ => (.error (.append .rowAlreadySet), builder)
  | none =>
    match RowKey.ofBytes builder.layout column.rowKey with
    | .error cause => (.error cause, builder)
    | .ok key => { builder with key? := some key }.append column

def add (builder : RowBuilder) (column : Column) : Except Error Unit × RowBuilder :=
  match builder.key? with
  | none => (.error (.append .rowNotSet), builder)
  | some key =>
    if key.matchesRow column.rowKey then builder.append column
    else (.error (.append (.otherRow key.bytes column.rowKey)), builder)

/-- Adds a column to a row that may still be without a key. -/
def push (builder : RowBuilder) (column : Column) : Except Error Unit × RowBuilder :=
  match builder.key? with
  | none => builder.setFirst column
  | some _ => builder.add column

/-- Pushes columns up to the first that is refused. -/
def pushAll (builder : RowBuilder) : List Column → Except Error RowBuilder
  | [] => .ok builder
  | column :: columns =>
    match builder.push column with
    | (.ok (), builder) => builder.pushAll columns
    | (.error cause, _) => .error cause

def freeze (builder : RowBuilder) : Except Error Row :=
  match builder.key? with
  | none => .error (.append .rowNotSet)
  | some key =>
    .ok
      { key
        granularity := builder.granularity
        resolution := builder.resolution
        values := builder.values.cells
        counts? := if builder.selection.counted then some builder.counts.cells else none }

def text (builder : RowBuilder) : String :=
  "RowAccumulator(key=" ++
    (match builder.key? with
    | some key => Bytes.listed key.bytes
    | none => "<none>") ++
    ", datapoints=" ++ Nat.repr builder.values.cells.size ++ ", counts=" ++
    Nat.repr builder.counts.cells.size ++ ")"

end RowBuilder

end Rollup
