import Rollup.Proofs.InnerJoin

/-! A row can be asked for the timestamp of a point by its index. Without counts the answer is looked up in the fields,
and with counts a cursor is led to the point. In both cases it is that of the point which a new cursor reads there. -/

namespace Rollup

namespace CellStream

theorem fieldAt?_of_length_le {stream : CellStream} {start : Nat} (behind : stream.fields.length ≤ start) :
    stream.fieldAt? start = none := by
  cases found : stream.fieldAt? start with
  | none => rfl
  | some field =>
    have bound := bound_of_fieldAt? found
    unfold Field.size at bound
    omega

/-- A stream ends long before the largest word, so nothing is found at a place that is kept within words. -/
theorem fieldAt?_word {cells : List Cell} (increasing : Increasing cells) (index : Nat) :
    (pack cells).fieldAt? (min (Field.size * index) Word.largest) = cells[index]?.map Cell.field := by
  rcases Nat.le_total (Field.size * index) Word.largest with word | large
  · rw [Nat.min_eq_left word, fieldAt?_index]
  · have few := increasing.length_le
    have length := length_fields_pack cells
    have behind : cells.length ≤ index := by
      unfold Field.size Word.largest at large
      omega
    rw [Nat.min_eq_right large, List.getElem?_eq_none behind, Option.map_none]
    apply fieldAt?_of_length_le
    unfold Field.size at length
    unfold Word.largest
    omega

end CellStream

namespace Cursor

/-- The point that is read behind so many others. -/
def nth (row : Row) : Nat → Cursor → Option Point
  | 0, cursor => (cursor.next row).1
  | index + 1, cursor =>
    match cursor.next row with
    | (none, _) => none
    | (some _, after) => nth row index after

theorem Yields.nth {row : Row} {cursor : Cursor} {points : List Point} (yields : Yields row cursor points) (index : Nat) :
    cursor.nth row index = points[index]? := by
  induction yields generalizing index with
  | done ended => cases index <;> simp only [Cursor.nth, ended, List.getElem?_nil]
  | more read _ ih =>
    cases index with
    | zero => simp only [Cursor.nth, read, List.getElem?_cons_zero]
    | succ index => simp only [Cursor.nth, read, List.getElem?_cons_succ, ih]

end Cursor

namespace Row

variable {row : Row} {cells : List Cell × Option (List Cell)}

theorem points_countless {values : List Cell} (packs : Cursor.Packs row (values, none)) :
    row.points = values.map fun value => row.point (value, none) := by
  rw [packs.points]
  simp only [Place.start, Place.pairs, Option.map_none, List.map_map, Function.comp_def]

theorem size_eq_length (packs : Cursor.Packs row cells) : row.size = row.points.length := by
  obtain ⟨values, counts?⟩ := cells
  have rowCounts := packs.counts
  unfold size counted
  cases counts? with
  | none =>
    rw [points_countless packs, packs.values, rowCounts, CellStream.size_pack, List.length_map]
    rfl
  | some counts =>
    rw [rowCounts]
    rfl

theorem timestampAt_eq (packs : Cursor.Packs row cells) (index : Nat) :
    row.timestampAt index =
      match row.points[index]? with
      | some point => .ok point.timestamp
      | none => .error (.outOfBounds index row.size) := by
  obtain ⟨values, counts?⟩ := cells
  have rowCounts := packs.counts
  unfold timestampAt counted
  cases counts? with
  | none =>
    have found := CellStream.fieldAt?_word packs.increasing index
    rw [← packs.values] at found
    simp only [rowCounts, Option.map_none, Option.isSome_none, Bool.false_eq_true, if_false, found,
      points_countless packs, List.getElem?_map]
    cases values[index]? <;> rfl
  | some counts =>
    simp only [rowCounts, Option.map_some, Option.isSome_some, if_true]
    cases row.points[index]? <;> rfl

/-- The size of a frozen row is the number of points that a new cursor reads, and the timestamp at an index is that of the
point which it reads there, however large the index is. Past the last point the index is out of bounds. -/
theorem random_access_agrees (frozen : row.Frozen) :
    ∃ points, Cursor.Yields row (.start row) points ∧ row.size = points.length ∧
      ∀ index, (Cursor.start row).nth row index = points[index]? ∧
        (index < row.size → ∃ point, points[index]? = some point ∧ row.timestampAt index = .ok point.timestamp) ∧
        (row.size ≤ index → row.timestampAt index = .error (.outOfBounds index row.size)) := by
  obtain ⟨cells, packs⟩ := frozen.packs
  have yields := Cursor.yields_drain row (.start row)
  have size := size_eq_length packs
  refine ⟨row.points, yields, size, fun index => ⟨yields.nth index, fun inside => ?_, fun behind => ?_⟩⟩
  · obtain ⟨point, found⟩ : ∃ point, row.points[index]? = some point :=
      ⟨_, List.getElem?_eq_getElem (size ▸ inside)⟩
    exact ⟨point, found, by rw [timestampAt_eq packs, found]⟩
  · rw [timestampAt_eq packs, List.getElem?_eq_none (size ▸ behind)]

end Row

/-- The sums of the small row, without their counts. -/
def Gappy.sums : Row := { row with counts? := none }

theorem Gappy.sums_frozen : sums.Frozen :=
  ⟨{ query with aggregator := .sum }, .default, { start with selection := ⟨.sum, 0, none⟩ }, feeds, rfl, rfl⟩

/-- Twice the last index is past the largest word. -/
theorem Row.random_access_agrees_sums :
    Gappy.sums.Frozen ∧ Gappy.sums.size = 3 ∧
      (∃ points, Cursor.Yields Gappy.sums (.start Gappy.sums) points ∧ points.length = 3 ∧
        ∃ point, points[1]? = some point ∧ Gappy.sums.timestampAt 1 = .ok point.timestamp) ∧
      Gappy.sums.timestampAt 9223372036854775808 = .error (.outOfBounds 9223372036854775808 3) := by
  have size : Gappy.sums.size = 3 := rfl
  obtain ⟨points, yields, length, access⟩ := Row.random_access_agrees Gappy.sums_frozen
  rw [size] at length access
  exact ⟨Gappy.sums_frozen, size, ⟨points, yields, length.symm, (access 1).2.1 (by decide)⟩,
    (access 9223372036854775808).2.2 (by decide)⟩

end Rollup
