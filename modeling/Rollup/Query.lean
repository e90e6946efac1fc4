import Rollup.Granularity

/-! What is read from a row: an aggregation at a granularity. -/

namespace Rollup

structure Query where
  aggregator : Aggregator
  granularity : Granularity
  deriving DecidableEq, Repr

def Aggregator.parse (text : String) : Except ConfigError Aggregator :=
  match Aggregator.ofText? text with
  | some aggregator => .ok aggregator
  | none => .error (.unknownAggregator text)

end Rollup
