import Rollup.Proofs.Spelling

/-! A table may give two aggregations one id, and a builder that is made from it unchecked cannot tell their cells
apart. Its streams are safe exactly if no other aggregation has an id that the query reads by, as in every checked
table. -/

namespace Rollup

/-- No cell under an id of the table is read as a cell of another aggregation, and counts are read as counts. -/
structure Selection.KeepsApart (selection : Selection) (table : IdTable) : Prop where
  values : ∀ name id, table.find? name = some id → ∀ field encoding,
    selection.classify (Qualifier.current id field) = .ok ⟨.value, encoding⟩ → name = selection.primary.name
  counts : ∀ name id, table.find? name = some id → ∀ field encoding,
    selection.classify (Qualifier.current id field) = .ok ⟨.count, encoding⟩ → name = Aggregator.count.name
  counted : selection.counted = true → ∀ id, table.find? Aggregator.count.name = some id → ∀ field,
    selection.classify (Qualifier.current id field) = .ok ⟨.count, .current⟩

/-- No other name has the id of an aggregation that the query reads. -/
structure IdTable.Reserves (table : IdTable) (query : Query) : Prop where
  stored : ∀ name id, table.find? name = some id → table.find? query.aggregator.stored.name = some id →
    name = query.aggregator.stored.name
  count : query.aggregator.needsCount = true → ∀ name id, table.find? name = some id →
    table.find? Aggregator.count.name = some id → name = Aggregator.count.name

theorem IdTable.reserves_of_clash?_none {table : IdTable} (clear : table.clash? = none) (query : Query) :
    table.Reserves query :=
  ⟨fun _ _ own other => find?_injective clear own other, fun _ _ _ own other => find?_injective clear own other⟩

namespace Selection

variable {selection : Selection} {id : UInt8} {field : Field}

theorem classify_current_value_iff {encoding : Encoding} :
    selection.classify (Qualifier.current id field) = .ok ⟨.value, encoding⟩ ↔
      id = selection.primaryId ∧ encoding = .current := by
  by_cases primary : id = selection.primaryId
  · subst primary
    simp [Qualifier.current, selection.classify_primary, eq_comm]
  · by_cases count : selection.countId? = some id
    · simp [Qualifier.current, classify_countId count primary, primary]
    · simp [classify_foreign_id (not_or.mpr ⟨primary, count⟩), primary]

theorem classify_current_count_iff {encoding : Encoding} :
    selection.classify (Qualifier.current id field) = .ok ⟨.count, encoding⟩ ↔
      id ≠ selection.primaryId ∧ selection.countId? = some id ∧ encoding = .current := by
  by_cases primary : id = selection.primaryId
  · subst primary
    simp [Qualifier.current, selection.classify_primary]
  · by_cases count : selection.countId? = some id
    · simp [Qualifier.current, classify_countId count primary, primary, count, eq_comm]
    · simp [classify_foreign_id (not_or.mpr ⟨primary, count⟩), count]

end Selection

namespace RowBuilder

variable {query : Query} {settings : Settings} {selection : Selection} {start : RowBuilder}

private theorem reserves_of_keepsApart (selected : select query settings = .ok selection)
    (apart : selection.KeepsApart settings.ids) : settings.ids.Reserves query := by
  obtain ⟨stored, primary, counted, _⟩ := select_ok selected
  constructor
  · intro name id own other
    have same : id = selection.primaryId := by
      rw [Settings.idFor_ok primary] at other
      exact (Option.some.inj other).symm
    rw [← stored]
    exact apart.values name id own ⟨0⟩ .current (Selection.classify_current_value_iff.mpr ⟨same, rfl⟩)
  · intro needs name id own other
    exact apart.counts name id own ⟨0⟩ .current (apart.counted (counted.trans needs) id other ⟨0⟩)

private theorem keepsApart_of_reserves (selected : select query settings = .ok selection)
    (reserves : settings.ids.Reserves query) : selection.KeepsApart settings.ids := by
  obtain ⟨stored, primary, counted, count⟩ := select_ok selected
  have primaryId := Settings.idFor_ok primary
  constructor
  · intro name id own field encoding routed
    obtain ⟨rfl, _⟩ := Selection.classify_current_value_iff.mp routed
    rw [stored]
    exact reserves.stored name _ own primaryId
  · intro name id own field encoding routed
    obtain ⟨_, taken, _⟩ := Selection.classify_current_count_iff.mp routed
    obtain ⟨needs, configured⟩ := (count id).mp taken
    exact reserves.count needs name id own (Settings.idFor_ok configured)
  · intro isCounted id own field
    have needs := counted.symm.trans isCounted
    have taken := (count id).mpr ⟨needs, Settings.idFor_of_find? own⟩
    have different : id ≠ selection.primaryId := by
      rintro rfl
      exact stored_ne_count needs (reserves.stored _ _ own primaryId).symm
    exact Selection.classify_current_count_iff.mpr ⟨different, taken, rfl⟩

/-- Whatever a builder was fed, it keeps the cells of all aggregations apart exactly if none shares an id with one that
the query reads. In checked settings none does. -/
theorem keepsApart_iff_reserves (created : create query settings = .ok start) (feeds : List Feed) :
    ((start.feedAll feeds).selection.KeepsApart settings.ids ↔ settings.ids.Reserves query) ∧
      (settings.validate = .ok () → (start.feedAll feeds).selection.KeepsApart settings.ids) := by
  obtain ⟨selected, _⟩ := create_ok created
  rw [(feedAll_holds created feeds).selection]
  refine ⟨⟨reserves_of_keepsApart selected, keepsApart_of_reserves selected⟩, fun valid => ?_⟩
  exact keepsApart_of_reserves selected (IdTable.reserves_of_clash?_none (Settings.clash?_of_validate valid) query)

/-! Minima and maxima have one id in this table, so it is refused when checked. Averages read neither of them. -/

def tiedSettings : Settings :=
  { Settings.default with ids := .ofEntries [("sum", 0), ("count", 1), ("min", 2), ("max", 2)] }

theorem keepsApart_iff_reserves_tied :
    create Gappy.query tiedSettings = .ok Gappy.start ∧
      tiedSettings.validate = .error (.sharedId 2 "max" "min") ∧
      (Gappy.start.feedAll Gappy.feeds).selection.KeepsApart tiedSettings.ids ∧
      Settings.default.validate = .ok () ∧
      (Gappy.start.feedAll Gappy.feeds).selection.KeepsApart Settings.default.ids := by
  have created : create Gappy.query tiedSettings = .ok Gappy.start := rfl
  have entries : tiedSettings.ids.entries = [("count", 1), ("max", 2), ("min", 2), ("sum", 0)] := rfl
  have named {name : String} {id : UInt8} (own : tiedSettings.ids.find? name = some id) :
      (id = 0 → name = "sum") ∧ (id = 1 → name = "count") := by
    have member := IdTable.mem_of_find? own
    rw [entries] at member
    simp only [List.mem_cons, Prod.mk.injEq, List.not_mem_nil, or_false] at member
    rcases member with ⟨rfl, rfl⟩ | ⟨rfl, rfl⟩ | ⟨rfl, rfl⟩ | ⟨rfl, rfl⟩ <;> decide
  refine ⟨created, rfl, (keepsApart_iff_reserves created Gappy.feeds).1.mpr ⟨?_, ?_⟩, rfl,
    (keepsApart_iff_reserves Gappy.created Gappy.feeds).2 rfl⟩
  · intro name id own other
    exact (named own).1 (Option.some.inj other).symm
  · intro _ name id own other
    exact (named own).2 (Option.some.inj other).symm

/-! Sums and counts have one id in this table. A builder is made from it all the same, and counts pass for sums. -/

def mergedSettings : Settings := { Settings.default with ids := .ofEntries [("sum", 0), ("count", 0)] }

def mergedStart : RowBuilder := { Gappy.start with selection := ⟨.sum, 0, some 0⟩ }

theorem count_taken_for_sum :
    create Gappy.query mergedSettings = .ok mergedStart ∧ mergedStart.selection.counted = true ∧
      mergedSettings.ids.find? "count" = some 0 ∧
      mergedStart.selection.classify (Qualifier.current 0 ⟨16⟩) = .ok ⟨.value, .current⟩ ∧
      ¬ mergedStart.selection.KeepsApart mergedSettings.ids := by
  have taken : mergedStart.selection.classify (Qualifier.current 0 ⟨16⟩) = .ok ⟨.value, .current⟩ := rfl
  refine ⟨rfl, rfl, rfl, taken, fun apart => ?_⟩
  have right := apart.counted rfl 0 rfl ⟨16⟩
  rw [taken] at right
  cases right

end RowBuilder

end Rollup
