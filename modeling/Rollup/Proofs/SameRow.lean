import Rollup.Proofs.InnerJoin

/-! Keys of one row have the same bytes behind the salt. No reader of a row sees the salt. -/

namespace Rollup

/-- No sum of widths is past the words, so nothing stops at an overflow. -/
structure KeyLayout.AddsUp (layout : KeyLayout) : Prop where
  front : layout.minLength ≤ Word.largest
  tag : layout.tagKey.toNat + layout.tagValue.toNat ≤ Word.largest

namespace RowKey

theorem tags?_of_addsUp {key : RowKey} (addsUp : key.layout.AddsUp) : key.tags? = some key.tags := by
  have width : key.layout.pairWidth? = some (key.layout.tagKey + key.layout.tagValue) := if_pos addsUp.tag
  rw [tags?, width]

/-- Two keys of one row; their salts may differ. -/
structure SameRow (first second : RowKey) : Prop where
  layout : second.layout = first.layout
  matched : first.matchesRow second.bytes = true

theorem matchesRow_iff {key : RowKey} {other : Bytes} :
    key.matchesRow other = true ↔
      other.length = key.bytes.length ∧ other.drop key.layout.salt.toNat = key.bytes.drop key.layout.salt.toNat := by
  simp only [matchesRow, Bool.and_eq_true, beq_iff_eq]

/-- A byte string that matches a key is long enough to be one. -/
theorem exists_sameRow {key : RowKey} {bytes : Bytes} (matched : key.matchesRow bytes = true) :
    ∃ other, ofBytes key.layout bytes = .ok other ∧ key.SameRow other := by
  have long : key.layout.minLength ≤ bytes.length := by
    rw [(matchesRow_iff.mp matched).1]
    exact key.admitted.long
  have admits : key.layout.Admits bytes := ⟨key.admitted.word, long⟩
  exact ⟨⟨bytes, key.layout, admits⟩, ofBytes_of_admits admits, rfl, matched⟩

namespace SameRow

variable {first second : RowKey}

theorem bytes (same : SameRow first second) :
    second.bytes.length = first.bytes.length ∧
      second.bytes.drop first.layout.salt.toNat = first.bytes.drop first.layout.salt.toNat :=
  matchesRow_iff.mp same.matched

theorem matchesRow (same : SameRow first second) (other : Bytes) :
    second.matchesRow other = first.matchesRow other := by
  obtain ⟨length, unsalted⟩ := same.bytes
  simp only [RowKey.matchesRow, same.layout, length, unsalted]

theorem drop (same : SameRow first second) (width : Nat) :
    second.bytes.drop (first.layout.salt.toNat + width) = first.bytes.drop (first.layout.salt.toNat + width) := by
  rw [← List.drop_drop, ← List.drop_drop, same.bytes.2]

theorem metric (same : SameRow first second) : second.metric = first.metric := by
  rw [RowKey.metric, RowKey.metric, same.layout, same.bytes.2]

theorem baseTime (same : SameRow first second) : second.baseTime = first.baseTime := by
  rw [RowKey.baseTime, RowKey.baseTime, same.layout, KeyLayout.baseTimeStart, same.drop]

theorem tags (same : SameRow first second) : second.tags = first.tags := by
  rw [RowKey.tags, RowKey.tags, same.layout, KeyLayout.minLength, KeyLayout.baseTimeStart, Nat.add_assoc, same.drop]

theorem tags? (same : SameRow first second) : second.tags? = first.tags? := by
  rw [RowKey.tags?, RowKey.tags?, same.layout, same.tags]

end SameRow

end RowKey

/-- Two rows that no reader tells apart, unless by the bytes of their keys. -/
structure Row.Alike (first second : Row) : Prop where
  values : second.values = first.values
  counts : second.counts? = first.counts?
  baseTime : second.key.baseTime = first.key.baseTime
  metric : second.key.metric = first.key.metric
  tags : second.key.tags? = first.key.tags?
  points : second.points = first.points
  size : second.size = first.size
  timestamps : ∀ index, second.timestampAt index = first.timestampAt index

theorem Row.timestamp_of_sameRow {row : Row} {key : RowKey} (same : row.key.SameRow key) (offset : Nat) :
    ({ row with key } : Row).timestamp offset = row.timestamp offset := by
  simp only [Row.timestamp, same.baseTime]

/-- Nothing that is read from a row depends on its salt. -/
theorem Row.alike_of_sameRow {row : Row} {key : RowKey} {cells : List Cell × Option (List Cell)}
    (packs : Cursor.Packs row cells) (same : row.key.SameRow key) : row.Alike { row with key } := by
  have timestamp := Row.timestamp_of_sameRow same
  have points : ({ row with key } : Row).points = row.points := by
    have otherPacks : Cursor.Packs { row with key } cells :=
      ⟨packs.values, packs.counts, packs.increasing, packs.countsIncreasing⟩
    have point : ({ row with key } : Row).point = row.point := by
      funext pair
      simp only [Row.point, timestamp]
    rw [otherPacks.points, packs.points, point]
  have size : ({ row with key } : Row).size = row.size := by
    simp only [Row.size, Row.counted, points]
    rfl
  refine ⟨rfl, rfl, same.baseTime, same.metric, same.tags?, points, size, ?_⟩
  intro index
  simp only [Row.timestampAt, Row.counted, points, size, timestamp]
  rfl

namespace Cursor

/-- Every operation is answered in both rows alike and leaves a cursor of either with the same positions, point and
count of skipped cells. -/
structure ReadAlike (first second : Row) : Prop where
  start : Cursor.start second = .start first
  perform : ∀ (cursor : Cursor) operation, cursor.perform second operation = cursor.perform first operation

theorem ReadAlike.answers {first second : Row} (alike : ReadAlike first second) (cursor : Cursor)
    (operations : List Operation) : cursor.answers second operations = cursor.answers first operations := by
  induction operations generalizing cursor with
  | nil => rfl
  | cons operation operations ih => rw [Cursor.answers, Cursor.answers, alike.perform, ih]

section SameRow
variable {row : Row} {key : RowKey} (same : row.key.SameRow key)
include same

private theorem next_of_sameRow (cursor : Cursor) : cursor.next { row with key } = cursor.next row := by
  simp only [Cursor.next, Cursor.take?, Row.timestamp_of_sameRow same]
  rfl

private theorem peek_of_sameRow (cursor : Cursor) : cursor.peek { row with key } = cursor.peek row := by
  simp only [Cursor.peek, Row.timestamp_of_sameRow same]
  rfl

private theorem skipBefore_of_sameRow (target : UInt64) (cursor : Cursor) :
    cursor.skipBefore { row with key } target = cursor.skipBefore row target := by
  have synced : cursor.sync { row with key } = cursor.sync row := rfl
  have ready : (cursor.sync row).ready { row with key } = (cursor.sync row).ready row := rfl
  rw [skipBefore_eq, skipBefore_eq, next_of_sameRow same, synced, ready]
  simp only [Row.timestamp_of_sameRow same]
  split
  · rfl
  · split
    · split
      · rfl
      · next after _ => exact skipBefore_of_sameRow target after
    · rfl
termination_by row.values.fields.length - cursor.values.field
decreasing_by
  have bounds := next_values ‹cursor.next row = _›
  omega

/-- The reading positions move over streams and timestamps, and these do not depend on the salt. -/
theorem readAlike_of_sameRow : ReadAlike row { row with key } := by
  refine ⟨rfl, ?_⟩
  intro cursor operation
  cases operation with
  | next => simp only [perform, next_of_sameRow same]
  | hasNext => rfl
  | peek => simp only [perform, peek_of_sameRow same]
  | seek timestamp => simp only [perform, Cursor.seek, skipBefore_of_sameRow same]
  | save => rfl
  | restore token => rfl

end SameRow

end Cursor

end Rollup
