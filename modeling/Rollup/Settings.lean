import Rollup.IdTable
import Rollup.Query
import Rollup.RowKey
import Rollup.Timestamp

/-! What a deployment fixes for all of its rows: the ids of aggregations, the layout of row keys,
what happens to repeated cells, and the resolution of timestamps. -/

namespace Rollup

structure Settings where
  ids : IdTable
  layout : KeyLayout
  /-- Whether the earliest written of repeated cells is kept; otherwise repetition is an error. -/
  fixDuplicates : Bool
  resolution : Resolution
  deriving DecidableEq

namespace Settings

def defaultIds : IdTable := .ofEntries [("sum", 0), ("count", 1), ("min", 2), ("max", 3)]

def default : Settings := ⟨defaultIds, {}, false, .milliseconds⟩

/-- Shared ids are reported before a bad layout. -/
def validate (settings : Settings) : Except ConfigError Unit :=
  match settings.ids.clash? with
  | some (id, first, second) => .error (.sharedId id first second)
  | none => settings.layout.validate

def idFor (settings : Settings) (aggregator : Aggregator) : Except ConfigError UInt8 :=
  match settings.ids.find? aggregator.name with
  | some id => .ok id
  | none => .error (.unknownAggregator aggregator.name)

end Settings

end Rollup
