import Rollup.Json.Column
import Rollup.Json.Query
import Rollup.Proofs.Buckets
import Rollup.Proofs.Json.Records
import Rollup.Proofs.Json.Texts

/-! Dumps and queries, written in JSON and read back. A dump comes back as it was, whatever it holds. The durations of
a query come back with their whole seconds and without the rest, so a query comes back as it was just when there is no
rest, and an accepted one always does. -/

namespace Rollup

theorem Bytes.ofJson?_toJson (bytes : Bytes) : ofJson? bytes.toJson = some bytes :=
  Json.list?_array_self Json.byte?_ofNat bytes

theorem Bytes.printable_toJson (bytes : Bytes) : Json.Printable bytes.toJson := by
  refine .array fun item present => ?_
  obtain ⟨byte, _, rfl⟩ := List.mem_map.mp present
  exact .ofNat _

namespace Column

theorem ofJson?_toJson (column : Column) : ofJson? column.toJson = some column := by
  have fields : column.toJson.fields? ["row_key", "qualifier", "value", "timestamp"] =
      some [some (Bytes.toJson column.rowKey), some (Bytes.toJson column.qualifier),
        some (Bytes.toJson column.value), some (.ofNat column.timestamp.toNat)] :=
    Json.fields?_record rfl (by decide)
  simp only [ofJson?, fields, Bytes.ofJson?_toJson, Json.word?_ofNat]

theorem printable_toJson (column : Column) : Json.Printable column.toJson := by
  refine .record ?_
  simp only [List.forall_mem_cons, List.not_mem_nil, false_implies, implies_true, and_true]
  exact ⟨Bytes.printable_toJson _, Bytes.printable_toJson _, Bytes.printable_toJson _, .ofNat _⟩

theorem printable_dump (columns : List Column) : Json.Printable (dump columns) := by
  refine .array fun item present => ?_
  obtain ⟨column, _, rfl⟩ := List.mem_map.mp present
  exact column.printable_toJson

theorem ofDump?_dump (columns : List Column) {text : String} (written : text ∈ (dump columns).texts) :
    ofDump? text = some columns := by
  rw [ofDump?, (printable_dump columns).parse?_texts written, Option.bind_some]
  exact Json.list?_array_self ofJson?_toJson columns

end Column

/-- Without what is beyond the whole seconds. -/
def Duration.whole (duration : Duration) : Duration := ⟨duration.seconds, 0⟩

theorem Duration.whole_eq_self_iff {duration : Duration} : duration.whole = duration ↔ duration.nanos = 0 := by
  obtain ⟨seconds, nanos⟩ := duration
  simp only [whole, mk.injEq, true_and]
  exact eq_comm

namespace Granularity
variable {granularity : Granularity}

def whole (granularity : Granularity) : Granularity := ⟨granularity.interval.whole, granularity.span.whole⟩

theorem buckets_whole (granularity : Granularity) : granularity.whole.buckets = granularity.buckets := rfl

theorem whole_eq_self_iff :
    granularity.whole = granularity ↔ granularity.interval.nanos = 0 ∧ granularity.span.nanos = 0 := by
  obtain ⟨interval, span⟩ := granularity
  simp only [whole, mk.injEq, Duration.whole_eq_self_iff]

/-- No accepted granularity has a fraction of a second. -/
theorem whole_of_validate (valid : granularity.validate = .ok ()) : granularity.whole = granularity := by
  have tiles := validate_ok_iff.mp valid
  exact whole_eq_self_iff.mpr ⟨tiles.interval_whole, tiles.span_whole⟩

theorem ofJson?_toJson (granularity : Granularity) : ofJson? granularity.toJson = some granularity.whole := by
  have fields : granularity.toJson.fields? ["interval", "row_span"] =
      some [some (.ofNat granularity.interval.seconds.toNat), some (.ofNat granularity.span.seconds.toNat)] :=
    Json.fields?_record rfl (by decide)
  simp only [ofJson?, fields, Json.word?_ofNat]
  rfl

theorem printable_toJson (granularity : Granularity) : Json.Printable granularity.toJson :=
  .record <| by simp [Json.Printable.ofNat]

example : (toJson ⟨⟨3600, 0⟩, ⟨86400, 0⟩⟩).compactText = "\x7b\"interval\":3600,\"row_span\":86400\x7d" := by decide

end Granularity

namespace Query
variable {query : Query}

def whole (query : Query) : Query := ⟨query.aggregator, query.granularity.whole⟩

theorem choice?_aggregator (aggregator : Aggregator) :
    (Json.ofString aggregator.name).choice? Aggregator.ofName? = some aggregator :=
  aggregator.ofName?_name

theorem ofJson?_toJson (query : Query) : ofJson? query.toJson = some query.whole := by
  have fields : query.toJson.fields? ["aggregator", "interval"] =
      some [some (.ofString query.aggregator.name), some query.granularity.toJson] :=
    Json.fields?_record rfl (by decide)
  simp only [ofJson?, fields, choice?_aggregator, Granularity.ofJson?_toJson]
  rfl

theorem printable_toJson (query : Query) : Json.Printable query.toJson := by
  refine .record ?_
  simp only [List.forall_mem_cons, List.not_mem_nil, false_implies, implies_true, and_true]
  exact ⟨.text _, query.granularity.printable_toJson⟩

/-- Accepted or not, a query is read without the fractions of its durations. -/
theorem ofText?_texts (query : Query) {text : String} (written : text ∈ query.toJson.texts) :
    ofText? text = some query.whole := by
  rw [ofText?, query.printable_toJson.parse?_texts written, Option.bind_some, ofJson?_toJson]

theorem ofText?_eq_self_iff {text : String} (written : text ∈ query.toJson.texts) :
    ofText? text = some query ↔ query.granularity.interval.nanos = 0 ∧ query.granularity.span.nanos = 0 := by
  rw [ofText?_texts query written, Option.some.injEq, ← Granularity.whole_eq_self_iff]
  obtain ⟨aggregator, granularity⟩ := query
  simp only [whole, mk.injEq, true_and]

theorem whole_of_validate (valid : query.granularity.validate = .ok ()) : query.whole = query := by
  rw [whole, Granularity.whole_of_validate valid]

end Query

/-- Every dump is read as the same columns. Every query with an accepted granularity is read as the same query, whose
granularity is accepted again and has as many buckets. -/
theorem dumps_and_queries_read_back :
    (∀ columns : List Column, ∀ text ∈ (Column.dump columns).texts, Column.ofDump? text = some columns) ∧
      ∀ query : Query, query.granularity.validate = .ok () → ∀ text ∈ query.toJson.texts,
        ∃ back, Query.ofText? text = some back ∧ back = query ∧ back.granularity.validate = .ok () ∧
          back.granularity.buckets = query.granularity.buckets := by
  refine ⟨fun columns text written => Column.ofDump?_dump columns written, fun query valid text written => ?_⟩
  have same : query.whole = query := Query.whole_of_validate valid
  refine ⟨query.whole, query.ofText?_texts written, same, ?_, query.granularity.buckets_whole⟩
  rw [same]
  exact valid

/-! A dump with the largest timestamp, the two ends of a byte and nothing at all in a value; and a query whose buckets
are as long as any can be. Half a second more is lost, and with it the query is not accepted. -/

def oddColumns : List Column := [⟨[0, 255], [4], [], 18446744073709551615⟩, ⟨[], [], [7], 0⟩]

def slowQuery (nanos : Nat) : Query := ⟨.dev, ⟨⟨18446744073709551615, 0⟩, ⟨18446744073709551615, nanos⟩⟩⟩

theorem dumps_and_queries_read_back_odd :
    Column.ofDump? (Column.dump oddColumns).compactText = some oddColumns ∧
      (slowQuery 0).granularity.validate = .ok () ∧
      Query.ofText? (slowQuery 0).toJson.prettyText = some (slowQuery 0) ∧
      (slowQuery 500000000).granularity.validate = .error .fractional ∧
      Query.ofText? (slowQuery 500000000).toJson.prettyText = some (slowQuery 0) := by
  have valid : (slowQuery 0).granularity.validate = .ok () := rfl
  obtain ⟨_, read, rfl, _⟩ := dumps_and_queries_read_back.2 (slowQuery 0) valid _ (Json.prettyText_mem _)
  refine ⟨dumps_and_queries_read_back.1 oddColumns _ (Json.compactText_mem _), valid, read, rfl, ?_⟩
  exact Query.ofText?_texts (slowQuery 500000000) (Json.prettyText_mem _)

end Rollup
