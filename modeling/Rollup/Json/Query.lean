import Rollup.Json.Printer
import Rollup.Json.Reader
import Rollup.Json.Record
import Rollup.Query

/-! Granularities and queries in JSON. Durations are whole seconds; what is read is not
validated. -/

namespace Rollup

def Granularity.toJson (granularity : Granularity) : Json :=
  .record
    [("interval", .ofNat granularity.interval.seconds.toNat),
      ("row_span", .ofNat granularity.span.seconds.toNat)]

def Granularity.ofJson? (value : Json) : Option Granularity :=
  match value.fields? ["interval", "row_span"] with
  | some [some interval, some span] =>
    match interval.word?, span.word? with
    | some interval, some span => some ⟨⟨interval, 0⟩, ⟨span, 0⟩⟩
    | _, _ => none
  | _ => none

def Query.toJson (query : Query) : Json :=
  .record
    [("aggregator", .ofString query.aggregator.name), ("interval", query.granularity.toJson)]

def Query.ofJson? (value : Json) : Option Query :=
  match value.fields? ["aggregator", "interval"] with
  | some [some aggregator, some granularity] =>
    match aggregator.choice? Aggregator.ofName?, Granularity.ofJson? granularity with
    | some aggregator, some granularity => some ⟨aggregator, granularity⟩
    | _, _ => none
  | _ => none

def Granularity.ofText? (text : String) : Option Granularity :=
  (Json.parse? text).bind Granularity.ofJson?

def Query.ofText? (text : String) : Option Query := (Json.parse? text).bind Query.ofJson?

end Rollup
