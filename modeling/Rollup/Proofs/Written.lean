import Rollup.Proofs.Building
import Rollup.Proofs.PayloadCodec
import Rollup.Proofs.Routing
import Rollup.Proofs.Standing

/-! Cells as a writer makes them: a number in bytes, a field for its bucket, and a qualifier that names the
aggregation by id or by name. A builder routes every such cell to the stream it was meant for. -/

namespace Rollup

/-- The ids that a query's rows take under the given settings. -/
def Settings.Takes (settings : Settings) (query : Query) (id : UInt8) : Prop :=
  settings.idFor query.aggregator.stored = .ok id ∨
    query.aggregator.needsCount = true ∧ settings.idFor .count = .ok id

/-- The qualifiers that name an aggregation: its configured id, or its name in any ASCII case. A name
whose first byte is taken as an id would be read as that id. -/
inductive Names (settings : Settings) (query : Query) (aggregator : Aggregator) (field : Field) : Bytes → Prop
  | id {id : UInt8} (configured : settings.idFor aggregator = .ok id) :
    Names settings query aggregator field (Qualifier.current id field)
  | name {name : String} (spelled : name.toList.map Char.toLower = aggregator.name.toList)
      (free : ∀ first ∈ (Qualifier.legacyName name).head?, ¬ settings.Takes query first) :
    Names settings query aggregator field (Qualifier.legacy name field)

/-- One cell that a writer made for a row of the query. -/
structure Written (settings : Settings) (query : Query) (aggregator : Aggregator) where
  offset : Nat
  value : Value
  payload : Bytes
  encoded : Value.Encodes value payload
  field : Field
  built : Field.ofParts offset payload.length value.kind = .ok field
  qualifier : Bytes
  named : Names settings query aggregator field qualifier
  timestamp : UInt64

namespace RowBuilder

variable {query : Query} {settings : Settings} {selection : Selection}

theorem select_ok (selected : select query settings = .ok selection) :
    selection.primary = query.aggregator.stored ∧
      settings.idFor query.aggregator.stored = .ok selection.primaryId ∧
      selection.counted = query.aggregator.needsCount ∧
      ∀ id, selection.countId? = some id ↔
        query.aggregator.needsCount = true ∧ settings.idFor .count = .ok id := by
  unfold select at selected
  split at selected
  · cases selected
  · next primaryId primary =>
    split at selected
    · next needs =>
      split at selected
      · cases selected
      · next countId count =>
        cases selected
        refine ⟨rfl, primary, needs.symm, ?_⟩
        intro id
        simp [needs, count]
    · next needless =>
      cases selected
      refine ⟨rfl, primary, ?_, ?_⟩
      · simpa [Selection.counted] using needless
      · intro id
        simp [needless]

theorem takes_of_select {id : UInt8} (selected : select query settings = .ok selection)
    (taken : selection.Takes id) : settings.Takes query id := by
  obtain ⟨_, primary, _, count⟩ := select_ok selected
  rcases taken with rfl | counted
  · exact .inl primary
  · exact .inr ((count id).mp counted)

end RowBuilder

namespace Names

open RowBuilder

variable {settings : Settings} {query : Query} {selection : Selection} {field : Field} {qualifier : Bytes}

theorem value_routed (selected : select query settings = .ok selection)
    (names : Names settings query query.aggregator.stored field qualifier) :
    ∃ encoding, selection.classify qualifier = .ok ⟨.value, encoding⟩ ∧
      Field.read qualifier encoding.fieldStart = .ok field := by
  obtain ⟨stored, primary, _, _⟩ := select_ok selected
  cases names with
  | @id id configured =>
    rw [primary] at configured
    cases configured
    exact ⟨.current, selection.classify_primary _, Qualifier.read_current _ field⟩
  | @name name spelled free =>
    rw [← stored] at spelled
    have notTaken : ∀ first ∈ (Qualifier.legacyName name).head?, ¬ selection.Takes first := by
      intro first member taken
      exact free first member (takes_of_select selected taken)
    exact ⟨.legacy _, Selection.classify_primary_name spelled notTaken _, Qualifier.read_legacy name field⟩

theorem count_routed (valid : settings.validate = .ok ()) (selected : select query settings = .ok selection)
    (needs : query.aggregator.needsCount = true) (names : Names settings query .count field qualifier) :
    ∃ encoding, selection.classify qualifier = .ok ⟨.count, encoding⟩ ∧
      Field.read qualifier encoding.fieldStart = .ok field := by
  obtain ⟨stored, primary, counted, count⟩ := select_ok selected
  have sums : query.aggregator.stored = .sum := if_pos needs
  cases names with
  | @id id configured =>
    have apart : id ≠ selection.primaryId := by
      refine Settings.idFor_ne valid configured primary ?_
      rw [sums]
      decide
    exact ⟨.current, Selection.classify_countId ((count id).mpr ⟨needs, configured⟩) apart _,
      Qualifier.read_current id field⟩
  | @name name spelled free =>
    have notTaken : ∀ first ∈ (Qualifier.legacyName name).head?, ¬ selection.Takes first := by
      intro first member taken
      exact free first member (takes_of_select selected taken)
    have routed := Selection.classify_count_name (stored.trans sums) (counted.trans needs) spelled notTaken field.bytes
    exact ⟨.legacy _, routed, Qualifier.read_legacy name field⟩

end Names

namespace Written

variable {settings : Settings} {query : Query} {aggregator : Aggregator}

def column (rowKey : Bytes) (cell : Written settings query aggregator) : Column :=
  ⟨rowKey, cell.qualifier, cell.payload, cell.timestamp⟩

def entry (rowKey : Bytes) (cell : Written settings query aggregator) : Entry :=
  ⟨cell.column rowKey, cell.field, Field.ofParts_fits cell.built⟩

theorem offset_cell (rowKey : Bytes) (cell : Written settings query aggregator) :
    (cell.entry rowKey).cell.offset = cell.offset := (Field.ofParts_ok cell.built).1

theorem value_cell (rowKey : Bytes) (cell : Written settings query aggregator) :
    (cell.entry rowKey).cell.value = cell.value := by
  have kind : cell.field.kind = cell.value.kind := (Field.ofParts_ok cell.built).2.2.1
  have decoded := cell.encoded.ofPayload
  rw [← kind] at decoded
  exact decoded

end Written

end Rollup
