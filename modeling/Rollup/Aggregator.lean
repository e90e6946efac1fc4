import Rollup.Text.Blank

/-! Aggregations of raw samples. Averages and deviations are not stored: they are derived from a
row's sums read beside its counts. -/

namespace Rollup

inductive Aggregator
  | sum
  | count
  | min
  | max
  | avg
  | dev
  deriving DecidableEq, Repr

namespace Aggregator

def all : List Aggregator := [.sum, .count, .min, .max, .avg, .dev]

def name : Aggregator → String
  | sum => "sum"
  | count => "count"
  | min => "min"
  | max => "max"
  | avg => "avg"
  | dev => "dev"

def ofName? (name : String) : Option Aggregator :=
  all.find? fun aggregator => aggregator.name == name

/-- A name as a user writes it: blanks around it and ASCII case do not matter. -/
def ofText? (text : String) : Option Aggregator :=
  ofName? (String.ofList ((Text.trim text.toList).map Char.toLower))

/-- Whether values are read together with their counts. -/
def needsCount : Aggregator → Bool
  | avg | dev => true
  | _ => false

/-- The aggregation whose cells hold the values. -/
def stored (aggregator : Aggregator) : Aggregator :=
  if aggregator.needsCount then .sum else aggregator

theorem ofName?_name (aggregator : Aggregator) : ofName? aggregator.name = some aggregator := by
  cases aggregator <;> decide

end Aggregator

end Rollup
