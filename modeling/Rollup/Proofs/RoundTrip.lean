import Rollup.Proofs.InnerJoin
import Rollup.Proofs.Written

/-! Written cells are read back. Values and counts may be pushed in any interleaving: none is refused, each
stream stores its own, and a new cursor on the frozen row gives what was written. -/

namespace Rollup

/-- The third list takes the elements of the first two in turns, each list in its order. -/
inductive Interleaves {α : Type} : List α → List α → List α → Prop
  | nil : Interleaves [] [] []
  | left {first second whole : List α} (x : α) (rest : Interleaves first second whole) :
    Interleaves (x :: first) second (x :: whole)
  | right {first second whole : List α} (x : α) (rest : Interleaves first second whole) :
    Interleaves first (x :: second) (x :: whole)

theorem Interleaves.ne_nil {α : Type} {first second whole : List α} (interleaves : Interleaves first second whole)
    (nonempty : first ≠ [] ∨ second ≠ []) : whole ≠ [] := by
  cases interleaves with
  | nil => simp at nonempty
  | left x _ => exact List.cons_ne_nil _ _
  | right x _ => exact List.cons_ne_nil _ _

namespace RowBuilder

def filled (start : RowBuilder) (key? : Option RowKey) (values counts : List Entry) : RowBuilder :=
  { start with key?, values := .holding values, counts := .holding counts }

/-- Entries that a row with the given key stores in one of its streams. -/
structure Expects (start : RowBuilder) (key : RowKey) (kind : StreamKind) (entry : Entry) : Prop where
  parsed : RowKey.ofBytes start.layout entry.column.rowKey = .ok key
  made : start.selection.entry entry.column = .ok (kind, entry)

/-- A column past the end of its stream is stored, whether or not it is the first of its row. -/
private theorem push_stores {builder : RowBuilder} {key : RowKey} {kind : StreamKind} {stored : List Entry}
    {entry : Entry} (expected : builder.Expects key kind entry)
    (keyed : builder.key? = none ∨ builder.key? = some key) (holding : builder.stream kind = .holding stored)
    (later : ∀ last ∈ stored.getLast?, last.offset < entry.offset) :
    builder.push entry.column =
      (.ok (), { builder with key? := some key }.setStream kind (.holding (stored ++ [entry]))) := by
  have admitted : Ledger.Admits builder.fixDuplicates stored entry := by
    intro last member
    exact .inl (later last member)
  have stream : ({ builder with key? := some key } : RowBuilder).stream kind = .holding stored := by
    rw [← holding]
    cases kind <;> rfl
  have appended : ({ builder with key? := some key } : RowBuilder).append entry.column =
      (.ok (), { builder with key? := some key }.setStream kind (.holding (stored ++ [entry]))) := by
    rw [append_eq]
    simp only [expected.made, stream, StreamBuilder.append_of_admits admitted, Ledger.record_of_lt later, Except.mapError]
  have belongs : builder.Belongs key entry.column := by
    rcases keyed with fresh | held
    · exact .inl ⟨fresh, expected.parsed⟩
    · exact .inr ⟨held, matchesRow_of_parsed expected.parsed⟩
  rw [push_of_belongs belongs, appended]

private theorem getLast?_lt {stored rest : List Entry} {entry : Entry}
    (increasing : Increasing ((stored ++ entry :: rest).map Entry.cell)) :
    ∀ last ∈ stored.getLast?, last.offset < entry.offset := by
  intro last member
  rw [List.map_append, List.map_cons] at increasing
  exact increasing.split.1 last.cell (List.mem_map_of_mem (List.mem_of_getLast? member))

/-- Pushing interleaved columns stores each entry at the end of its stream. -/
theorem pushAll_interleaved {start : RowBuilder} {key : RowKey} {first second columns : List Column}
    (interleaves : Interleaves first second columns) (key? : Option RowKey) (values counts : List Entry)
    (storedValues storedCounts : List Entry) (keyed : key? = none ∨ key? = some key)
    (isFirst : first = values.map Entry.column) (isSecond : second = counts.map Entry.column)
    (expectedValues : ∀ entry ∈ values, start.Expects key .value entry)
    (expectedCounts : ∀ entry ∈ counts, start.Expects key .count entry)
    (increasing : Increasing ((storedValues ++ values).map Entry.cell))
    (countsIncreasing : Increasing ((storedCounts ++ counts).map Entry.cell)) :
    (start.filled key? storedValues storedCounts).pushAll columns =
      .ok (start.filled (if columns = [] then key? else some key) (storedValues ++ values)
        (storedCounts ++ counts)) := by
  -- Each push moves one entry from the lists to come to the end of those stored.
  induction interleaves generalizing key? values counts storedValues storedCounts with
  | nil =>
    rw [List.map_eq_nil_iff.mp isFirst.symm, List.map_eq_nil_iff.mp isSecond.symm, List.append_nil, List.append_nil]
    rfl
  | left column _ ih =>
    obtain ⟨entry, values, rfl, rfl, isRest⟩ := List.map_eq_cons_iff.mp isFirst.symm
    have expected := expectedValues entry (by simp)
    have pushed := @push_stores (start.filled key? storedValues storedCounts) key .value storedValues entry
      ⟨expected.parsed, expected.made⟩ keyed rfl (getLast?_lt increasing)
    have rest := ih (some key) values counts (storedValues ++ [entry]) storedCounts (.inr rfl) isRest.symm isSecond
      (fun other member => expectedValues other (List.mem_cons_of_mem _ member)) expectedCounts
      (by simpa only [List.append_assoc, List.singleton_append] using increasing) countsIncreasing
    rw [ite_self, List.append_assoc, List.singleton_append] at rest
    rw [pushAll, pushed]
    exact rest
  | right column _ ih =>
    obtain ⟨entry, counts, rfl, rfl, isRest⟩ := List.map_eq_cons_iff.mp isSecond.symm
    have expected := expectedCounts entry (by simp)
    have pushed := @push_stores (start.filled key? storedValues storedCounts) key .count storedCounts entry
      ⟨expected.parsed, expected.made⟩ keyed rfl (getLast?_lt countsIncreasing)
    have rest := ih (some key) values counts storedValues (storedCounts ++ [entry]) (.inr rfl) isFirst isRest.symm
      expectedValues (fun other member => expectedCounts other (List.mem_cons_of_mem _ member)) increasing
      (by simpa only [List.append_assoc, List.singleton_append] using countsIncreasing)
    rw [ite_self, List.append_assoc, List.singleton_append] at rest
    rw [pushAll, pushed]
    exact rest

theorem filled_start {query : Query} {settings : Settings} {start : RowBuilder}
    (created : create query settings = .ok start) : start.filled none [] [] = start := by
  rw [(create_ok created).2]
  rfl

theorem freeze_filled (start : RowBuilder) (key : RowKey) {values counts : List Entry}
    (increasing : Increasing (values.map Entry.cell)) (countsIncreasing : Increasing (counts.map Entry.cell)) :
    ∃ row, (start.filled (some key) values counts).freeze = .ok row ∧ row.key = key ∧
      row.granularity = start.granularity ∧ row.resolution = start.resolution ∧
      Cursor.Packs row
        (values.map Entry.cell, if start.selection.counted then some (counts.map Entry.cell) else none) := by
  refine ⟨_, rfl, rfl, rfl, rfl, rfl, ?_, increasing, ?_⟩
  · by_cases counted : start.selection.counted = true
    · exact (if_pos counted).trans (by rw [if_pos counted]; rfl)
    · exact (if_neg counted).trans (by rw [if_neg counted]; rfl)
  · intro cells member
    split at member <;> cases member
    exact countsIncreasing

end RowBuilder

namespace Written

variable {settings : Settings} {query : Query} {aggregator : Aggregator}

def point (key : RowKey) (cell : Written settings query aggregator) (count? : Option Value) : Point :=
  { timestamp := Timestamp.ofBucket key.baseTime query.granularity.interval.seconds cell.offset settings.resolution
    offset := cell.offset
    value := cell.value
    count? }

/-- What a row of these cells should give: each value alone, or else each with the count of its offset. -/
def points (key : RowKey) (values : List (Written settings query query.aggregator.stored))
    (counts : List (Written settings query .count)) : List Point :=
  if query.aggregator.needsCount then
    values.filterMap fun value =>
      (counts.find? fun count => count.offset = value.offset).map fun count => value.point key (some count.value)
  else values.map fun value => value.point key none

private theorem increasing_cells {cells : List (Written settings query aggregator)} (rowKey : Bytes)
    (increasing : cells.Pairwise fun first second => first.offset < second.offset) :
    Increasing ((cells.map (entry rowKey)).map Entry.cell) := by
  rw [List.map_map, Increasing, List.pairwise_map]
  simpa only [Function.comp_apply, offset_cell] using increasing

private theorem joined_cells {second : Aggregator} (rowKey : Bytes) (values : List (Written settings query aggregator))
    (counts : List (Written settings query second)) :
    Merge.joined ((values.map (entry rowKey)).map Entry.cell) ((counts.map (entry rowKey)).map Entry.cell) =
      values.filterMap fun value =>
        (counts.find? fun count => count.offset = value.offset).map fun count =>
          ((value.entry rowKey).cell, (count.entry rowKey).cell) := by
  simp only [Merge.joined, List.map_map, List.filterMap_map, List.find?_map, Option.map_map, Function.comp_def,
    offset_cell]

private theorem point_cell {row : Row} {rowKey : Bytes} (granularity : row.granularity = query.granularity)
    (resolution : row.resolution = settings.resolution) (cell : Written settings query aggregator)
    (count? : Option Cell) :
    row.point ((cell.entry rowKey).cell, count?) = cell.point row.key (count?.map Cell.value) := by
  simp only [Row.point, point, Row.timestamp, granularity, resolution, offset_cell, value_cell]

private theorem points_of_packs {row : Row} {rowKey : Bytes}
    {values : List (Written settings query query.aggregator.stored)} {counts : List (Written settings query .count)}
    (granularity : row.granularity = query.granularity) (resolution : row.resolution = settings.resolution)
    (packs : Cursor.Packs row ((values.map (entry rowKey)).map Entry.cell,
      if query.aggregator.needsCount then some ((counts.map (entry rowKey)).map Entry.cell) else none)) :
    row.points = points row.key values counts := by
  rw [packs.points, points]
  split
  · simp only [Place.start, Place.pairs, Option.map_some, joined_cells, List.map_filterMap, Option.map_map,
      Function.comp_def, point_cell granularity resolution, value_cell]
  · simp only [Place.start, Place.pairs, Option.map_none, List.map_map, Function.comp_def,
      point_cell granularity resolution]

private theorem value_expected {start : RowBuilder} {key : RowKey} {rowKey : Bytes}
    (selected : RowBuilder.select query settings = .ok start.selection)
    (parsed : RowKey.ofBytes start.layout rowKey = .ok key)
    (values : List (Written settings query query.aggregator.stored)) :
    ∀ stored ∈ values.map (entry rowKey), start.Expects key .value stored := by
  intro stored member
  obtain ⟨cell, _, rfl⟩ := List.mem_map.mp member
  exact ⟨parsed, Selection.entry_ok_iff.mpr ⟨rfl, cell.named.value_routed selected⟩⟩

private theorem count_expected {start : RowBuilder} {key : RowKey} {rowKey : Bytes}
    (valid : settings.validate = .ok ()) (selected : RowBuilder.select query settings = .ok start.selection)
    (parsed : RowKey.ofBytes start.layout rowKey = .ok key) {counts : List (Written settings query .count)}
    (countless : query.aggregator.needsCount = false → counts = []) :
    ∀ stored ∈ counts.map (entry rowKey), start.Expects key .count stored := by
  intro stored member
  obtain ⟨cell, present, rfl⟩ := List.mem_map.mp member
  have needs : query.aggregator.needsCount = true := by
    cases needed : query.aggregator.needsCount with
    | true => rfl
    | false =>
      rw [countless needed] at present
      cases present
  exact ⟨parsed, Selection.entry_ok_iff.mpr ⟨rfl, cell.named.count_routed valid selected needs⟩⟩

/-- Pushing written cells in any interleaving succeeds, and so does freezing the row. A new cursor reads
the values back in order, each with the count of its offset where counts are needed. -/
theorem write_read_round_trip {start : RowBuilder} {rowKey : Bytes} (valid : settings.validate = .ok ())
    (created : RowBuilder.create query settings = .ok start) (admits : settings.layout.Admits rowKey)
    {values : List (Written settings query query.aggregator.stored)} {counts : List (Written settings query .count)}
    {columns : List Column} (increasing : values.Pairwise fun first second => first.offset < second.offset)
    (countsIncreasing : counts.Pairwise fun first second => first.offset < second.offset)
    (countless : query.aggregator.needsCount = false → counts = []) (nonempty : values ≠ [] ∨ counts ≠ [])
    (interleaves : Interleaves (values.map (column rowKey)) (counts.map (column rowKey)) columns) :
    ∃ builder row, start.pushAll columns = .ok builder ∧ builder.freeze = .ok row ∧
      Cursor.Yields row (.start row) (points ⟨rowKey, settings.layout, admits⟩ values counts) := by
  obtain ⟨selected, shape⟩ := RowBuilder.create_ok created
  obtain ⟨_, _, counted, _⟩ := RowBuilder.select_ok selected
  have parsed : RowKey.ofBytes start.layout rowKey = .ok ⟨rowKey, settings.layout, admits⟩ := by
    rw [shape]
    exact RowKey.ofBytes_of_admits admits
  have valueCells := increasing_cells rowKey increasing
  have countCells := increasing_cells rowKey countsIncreasing
  have pushed := RowBuilder.pushAll_interleaved interleaves none (values.map (entry rowKey))
    (counts.map (entry rowKey)) [] [] (.inl rfl) (by rw [List.map_map]; rfl) (by rw [List.map_map]; rfl)
    (value_expected selected parsed values) (count_expected valid selected parsed countless) valueCells countCells
  have whole : columns ≠ [] := interleaves.ne_nil (by simpa only [ne_eq, List.map_eq_nil_iff] using nonempty)
  rw [RowBuilder.filled_start created, if_neg whole, List.nil_append, List.nil_append] at pushed
  obtain ⟨row, frozen, key, granularity, resolution, packs⟩ :=
    start.freeze_filled ⟨rowKey, settings.layout, admits⟩ valueCells countCells
  rw [counted] at packs
  have read := points_of_packs (granularity.trans (by rw [shape])) (resolution.trans (by rw [shape])) packs
  rw [key] at read
  refine ⟨_, row, pushed, frozen, ?_⟩
  rw [← read]
  exact Cursor.yields_drain row (.start row)

private theorem gappy_free {name : String} {first : UInt8} (head : (Qualifier.legacyName name).head? = some first)
    (notSum : Settings.default.idFor .sum ≠ .ok first) (notCount : Settings.default.idFor .count ≠ .ok first) :
    ∀ byte ∈ (Qualifier.legacyName name).head?, ¬ Settings.default.Takes Gappy.query byte := by
  intro byte member
  rw [head] at member
  cases member
  rintro (sum | ⟨_, count⟩)
  · exact notSum sum
  · exact notCount count

def gappyValues : List (Written .default Gappy.query .sum) :=
  [⟨1, .integer (-300), encodeInteger (-300), .shortest (-300), ⟨17⟩, rfl, Qualifier.current 0 ⟨17⟩, .id rfl, 5⟩,
    ⟨4000, .float ⟨0x7ff8000000000001⟩, encodeDouble ⟨0x7ff8000000000001⟩, .double _, ⟨64015⟩, rfl,
      Qualifier.legacy "SuM" ⟨64015⟩,
      .name (by decide) (@gappy_free _ 83 (by decide) (by decide) (by decide)), 6⟩]

def gappyCounts : List (Written .default Gappy.query .count) :=
  [⟨4000, .integer 3, [0, 3], .ofWidth (show encodeIntegerIn 2 3 = .ok [0, 3] from rfl), ⟨64001⟩, rfl,
    Qualifier.current 1 ⟨64001⟩, .id rfl, 5⟩]

def gappyColumns : List Column :=
  [⟨Gappy.rowKey, [0, 0, 17], [254, 212], 5⟩, ⟨Gappy.rowKey, [1, 250, 1], [0, 3], 5⟩,
    ⟨Gappy.rowKey, [83, 117, 77, 58, 250, 15], [127, 248, 0, 0, 0, 0, 0, 1], 6⟩]

private theorem gappy_interleaves :
    Interleaves (gappyValues.map (column Gappy.rowKey)) (gappyCounts.map (column Gappy.rowKey)) gappyColumns := by
  have values : gappyValues.map (column Gappy.rowKey) =
      [⟨Gappy.rowKey, [0, 0, 17], [254, 212], 5⟩,
        ⟨Gappy.rowKey, [83, 117, 77, 58, 250, 15], [127, 248, 0, 0, 0, 0, 0, 1], 6⟩] := by decide +kernel
  have counts : gappyCounts.map (column Gappy.rowKey) = [⟨Gappy.rowKey, [1, 250, 1], [0, 3], 5⟩] := by decide +kernel
  rw [values, counts]
  exact .left _ (.right _ (.left _ .nil))

theorem write_read_round_trip_gappy :
    Settings.default.validate = .ok () ∧ RowBuilder.create Gappy.query .default = .ok Gappy.start ∧
      Settings.default.layout.Admits Gappy.rowKey ∧
      ∃ builder row, Gappy.start.pushAll gappyColumns = .ok builder ∧ builder.freeze = .ok row ∧
        Cursor.Yields row (.start row) [⟨240000000, 4000, .float ⟨0x7ff8000000000001⟩, some (.integer 3)⟩] := by
  have valid : Settings.default.validate = .ok () := by decide +kernel
  have admits : Settings.default.layout.Admits Gappy.rowKey := by decide
  have increasing : gappyValues.Pairwise fun first second => first.offset < second.offset := by decide +kernel
  obtain ⟨builder, row, pushed, frozen, read⟩ :=
    @write_read_round_trip .default Gappy.query Gappy.start Gappy.rowKey valid Gappy.created admits gappyValues
      gappyCounts gappyColumns increasing (by decide +kernel) (fun needless => by cases needless)
      (.inl (List.cons_ne_nil _ _)) gappy_interleaves
  have expected : points Gappy.row.key gappyValues gappyCounts =
      [⟨240000000, 4000, .float ⟨0x7ff8000000000001⟩, some (.integer 3)⟩] := by decide +kernel
  change Cursor.Yields row (.start row) (points Gappy.row.key gappyValues gappyCounts) at read
  rw [expected] at read
  exact ⟨valid, Gappy.created, admits, builder, row, pushed, frozen, read⟩

end Written

end Rollup
