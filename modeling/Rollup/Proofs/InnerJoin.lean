import Rollup.Proofs.Traversal

/-! A new cursor reads a row to its end. Without counts it gives a point for every value; with counts it
gives the inner join of both streams on the offset, each value beside its own count. -/

namespace Rollup

namespace Merge

variable {values counts : List Cell} {pair : Cell × Cell}

theorem mem_joined_iff (increasing : Increasing counts) :
    pair ∈ joined values counts ↔ pair.1 ∈ values ∧ pair.2 ∈ counts ∧ pair.2.offset = pair.1.offset := by
  obtain ⟨value, count⟩ := pair
  simp only [joined, List.mem_filterMap, Option.map_eq_some_iff, Prod.mk.injEq]
  constructor
  · rintro ⟨other, member, found, isFound, rfl, rfl⟩
    exact ⟨member, List.mem_of_find?_eq_some isFound, by simpa using List.find?_some isFound⟩
  · rintro ⟨member, present, same⟩
    refine ⟨value, member, count, ?_, rfl, rfl⟩
    cases isFound : counts.find? fun other => other.offset = value.offset with
    | none =>
      have unequal := List.find?_eq_none.mp isFound count present
      simp [same] at unequal
    | some found =>
      have foundSame : found.offset = value.offset := by simpa using List.find?_some isFound
      rw [increasing.eq_of_offset (List.mem_of_find?_eq_some isFound) present (foundSame.trans same.symm)]

theorem joined_increasing (increasing : Increasing values) (counts : List Cell) :
    (joined values counts).Pairwise fun first second => first.1.offset < second.1.offset := by
  refine List.Pairwise.filterMap _ ?_ increasing
  intro first second below pair isFirst pair' isSecond
  obtain ⟨_, _, rfl⟩ := Option.map_eq_some_iff.mp isFirst
  obtain ⟨_, _, rfl⟩ := Option.map_eq_some_iff.mp isSecond
  exact below

end Merge

namespace Cursor

/-- The cursor reads the given points one after the other, and then there are no more. -/
inductive Yields (row : Row) : Cursor → List Point → Prop
  | done {cursor after : Cursor} (ended : cursor.next row = (none, after)) : Yields row cursor []
  | more {cursor after : Cursor} {point : Point} {points : List Point}
      (read : cursor.next row = (some point, after)) (rest : Yields row after points) :
      Yields row cursor (point :: points)

theorem yields_drain (row : Row) (cursor : Cursor) : Yields row cursor (cursor.drain row).1 := by
  fun_induction drain row cursor with
  | case1 cursor after ended => exact .done ended
  | case2 cursor point after read points last drained ih =>
    rw [drained] at ih
    exact .more read ih

theorem Yields.eq_drain {row : Row} {cursor : Cursor} {points : List Point} (yields : Yields row cursor points) :
    points = (cursor.drain row).1 := by
  induction yields with
  | @done cursor _ ended =>
    rw [Cursor.drain]
    split
    · rfl
    · next read => rw [ended] at read; cases read
  | @more cursor _ point _ read _ ih =>
    rw [Cursor.drain]
    split
    · next ended => rw [read] at ended; cases ended
    · next again =>
      rw [read] at again
      cases again
      rw [ih]

theorem Stands.drain {row : Row} {cursor : Cursor} {place : Place} (stands : Stands row cursor place) :
    (cursor.drain row).1 = place.pairs.map row.point := by
  fun_induction Cursor.drain row cursor generalizing place with
  | case1 cursor after ended =>
    cases taken : place.sync.next? with
    | none =>
      have empty := Place.pairs_of_next?_none taken
      rw [Place.pairs_sync stands.sound] at empty
      rw [empty, List.map_nil]
    | some pair =>
      obtain ⟨pair, _⟩ := pair
      obtain ⟨moved, read, _⟩ := stands.next_some taken
      rw [ended] at read
      cases read
  | case2 cursor point after read points last drained ih =>
    cases taken : place.sync.next? with
    | none =>
      rw [stands.next_none taken] at read
      cases read
    | some pair =>
      obtain ⟨pair, rest⟩ := pair
      obtain ⟨moved, again, kept, _⟩ := stands.next_some taken
      rw [read] at again
      cases again
      have left := ih kept
      rw [drained] at left
      rw [(stands.sound.next taken).1, List.map_cons, ← left]

theorem Packs.points {row : Row} {cells : List Cell × Option (List Cell)} (packs : Packs row cells) :
    row.points = (Place.start cells.1 cells.2).pairs.map row.point := by
  have sound := Place.sound_start packs.increasing packs.countsIncreasing
  rw [Row.points, packs.start.drain, Place.pairs_sync sound]

end Cursor

namespace Row

/-- The points are the inner join of the row's values with the given counts on the offset. Cells are
given by their fields and payloads, and decoded from these. -/
structure Joins (row : Row) (counts : CellStream) (points : List Point) : Prop where
  increasing : points.Pairwise fun first second => first.offset < second.offset
  offsets : ∀ offset, (∃ point ∈ points, point.offset = offset) ↔
    (∃ cell ∈ row.values.cells, cell.1.offset = offset) ∧ ∃ cell ∈ counts.cells, cell.1.offset = offset
  values : ∀ point ∈ points, ∀ cell ∈ row.values.cells, cell.1.offset = point.offset →
    Value.decode cell.1 cell.2 = .ok point.value
  counts : ∀ point ∈ points, ∃ count, point.count? = some count ∧
    ∀ cell ∈ counts.cells, cell.1.offset = point.offset → Value.decode cell.1 cell.2 = .ok count
  timestamps : ∀ point ∈ points, point.timestamp = row.timestamp point.offset

end Row

private theorem decode_of_offset {cells : List Cell} {cell : Cell} (increasing : Increasing cells)
    (member : cell ∈ cells) {found : Field × Bytes} (present : found ∈ (CellStream.pack cells).cells)
    (same : found.1.offset = cell.offset) : Value.decode found.1 found.2 = .ok cell.value := by
  rw [CellStream.cells_pack] at present
  obtain ⟨other, isOther, rfl⟩ := List.mem_map.mp present
  rw [increasing.eq_of_offset isOther member same]
  exact cell.decode_value

private theorem exists_cell_iff {cells : List Cell} {offset : Nat} :
    (∃ cell ∈ (CellStream.pack cells).cells, cell.1.offset = offset) ↔ ∃ cell ∈ cells, cell.offset = offset := by
  rw [CellStream.cells_pack]
  constructor
  · rintro ⟨_, present, same⟩
    obtain ⟨cell, member, rfl⟩ := List.mem_map.mp present
    exact ⟨cell, member, same⟩
  · rintro ⟨cell, member, same⟩
    exact ⟨_, List.mem_map_of_mem member, same⟩

theorem Row.joins_of_joined {row : Row} {values counts : List Cell} (rowValues : row.values = .pack values)
    (increasing : Increasing values) (countsIncreasing : Increasing counts) :
    row.Joins (.pack counts) ((Merge.joined values counts).map fun pair => row.point (pair.1, some pair.2)) := by
  have member_iff {pair : Cell × Cell} := @Merge.mem_joined_iff values counts pair countsIncreasing
  constructor
  · exact List.pairwise_map.mpr (Merge.joined_increasing increasing counts)
  · intro offset
    rw [rowValues, exists_cell_iff, exists_cell_iff]
    constructor
    · rintro ⟨point, present, rfl⟩
      obtain ⟨pair, member, rfl⟩ := List.mem_map.mp present
      obtain ⟨value, count, same⟩ := member_iff.mp member
      exact ⟨⟨pair.1, value, rfl⟩, pair.2, count, same⟩
    · rintro ⟨⟨value, isValue, rfl⟩, count, isCount, same⟩
      have member : (value, count) ∈ Merge.joined values counts := member_iff.mpr ⟨isValue, isCount, same⟩
      exact ⟨_, List.mem_map_of_mem member, rfl⟩
  · intro point present cell isCell same
    obtain ⟨pair, member, rfl⟩ := List.mem_map.mp present
    rw [rowValues] at isCell
    exact decode_of_offset increasing (member_iff.mp member).1 isCell same
  · intro point present
    obtain ⟨pair, member, rfl⟩ := List.mem_map.mp present
    obtain ⟨_, isCount, equal⟩ := member_iff.mp member
    refine ⟨pair.2.value, rfl, ?_⟩
    intro cell isCell same
    exact decode_of_offset countsIncreasing isCount isCell (same.trans equal.symm)
  · intro point present
    obtain ⟨pair, _, rfl⟩ := List.mem_map.mp present
    rfl

/-- Reading a frozen row from its start ends. Without counts each value cell is a point, in order and
without a count; with counts the points are the inner join of both streams. -/
theorem Row.points_inner_join {row : Row} (frozen : row.Frozen) :
    Cursor.Yields row (.start row) row.points ∧
      (row.counts? = none →
        row.points.map (fun point => (point.timestamp, point.offset, Except.ok point.value, point.count?)) =
          row.values.cells.map fun cell =>
            (row.timestamp cell.1.offset, cell.1.offset, Value.decode cell.1 cell.2, none)) ∧
      ∀ counts, row.counts? = some counts → row.Joins counts row.points := by
  obtain ⟨⟨values, counts?⟩, packs⟩ := frozen.packs
  have rowCounts := packs.counts
  have points := packs.points
  refine ⟨Cursor.yields_drain row _, ?_, ?_⟩
  · intro countless
    cases counts? with
    | some _ => rw [countless] at rowCounts; cases rowCounts
    | none =>
      rw [points, packs.values, CellStream.cells_pack]
      simp only [Place.start, Place.pairs, Option.map_none, List.map_map, List.map_inj_left, Function.comp_apply]
      intro cell _
      simp only [Row.point, Cell.offset, cell.decode_value, Option.map_none]
  · intro counts counted
    cases counts? with
    | none => rw [counted] at rowCounts; cases rowCounts
    | some cells =>
      rw [counted] at rowCounts
      cases rowCounts
      rw [points]
      simp only [Place.start, Place.pairs, Option.map_some, List.map_map]
      exact Row.joins_of_joined packs.values packs.increasing (packs.countsIncreasing cells rfl)

theorem Row.points_inner_join_gappy :
    Gappy.row.Frozen ∧ Gappy.row.points.map (fun point => (point.offset, point.value, point.count?)) =
        [(3, .integer 256, some (.integer 5)), (5, .integer 9, some (.integer 6))] ∧
      Cursor.Yields Gappy.row (.start Gappy.row) Gappy.row.points ∧
      Gappy.row.Joins ⟨[0, 32, 0, 48, 0, 80], [4, 5, 6]⟩ Gappy.row.points := by
  obtain ⟨read, _, joined⟩ := Row.points_inner_join Gappy.frozen
  exact ⟨Gappy.frozen, by decide +kernel, read, joined _ rfl⟩

end Rollup
