import Rollup.Proofs.InnerJoin
import Rollup.Proofs.Rescans

/-! Wherever a cursor was led, its byte positions lie between two cells of their streams, and the counts that it has
passed go with the values that it has passed. So nothing that it reads fails to decode, and the points still to come
can be told from its position in the values. -/

namespace Rollup

namespace CellStream

/-- The fields of the cells before a byte position. -/
def fieldsBefore (stream : CellStream) (start : Nat) : List Field := Field.list (stream.fields.take start)

/-- The fields of the cells at or after a byte position. -/
def fieldsFrom (stream : CellStream) (start : Nat) : List Field := Field.list (stream.fields.drop start)

/-- The cells at or after a byte position. -/
def cellsFrom (stream : CellStream) (start : Nat) : List (Field × Bytes) := stream.cells.drop (start / Field.size)

end CellStream

/-- A position between two cells of a stream: past whole fields, and past the payloads that these announce. -/
structure Position.Within (position : Position) (stream : CellStream) : Prop where
  even : position.field % Field.size = 0
  fieldInside : position.field ≤ stream.fields.length
  payload : position.payload = ((stream.fieldsBefore position.field).map Field.width).sum
  payloadInside : position.payload ≤ stream.payloads.length

namespace Row

def stream? (row : Row) : StreamKind → Option CellStream
  | .value => some row.values
  | .count => row.counts?

/-- The row has a count of the offset, if it has counts at all. -/
def paired (row : Row) (offset : Nat) : Bool :=
  row.counts?.all fun counts => counts.fieldList.any fun count => count.offset = offset

end Row

namespace Gap

theorem fieldsBefore_position (gap : Gap) :
    (CellStream.pack gap.cells).fieldsBefore gap.position.field = gap.passed.map Cell.field := by
  rw [CellStream.fieldsBefore, CellStream.take_fields_pack]
  exact CellStream.fieldList_pack gap.passed

theorem fieldsFrom_position (gap : Gap) :
    (CellStream.pack gap.cells).fieldsFrom gap.position.field = gap.pending.map Cell.field := by
  rw [CellStream.fieldsFrom, cells, CellStream.pack_append, gap.position_field, ← CellStream.length_fields_pack,
    List.drop_left]
  exact CellStream.fieldList_pack gap.pending

theorem cellsFrom_position (gap : Gap) :
    (CellStream.pack gap.cells).cellsFrom gap.position.field =
      gap.pending.map fun cell => (cell.field, cell.payload) := by
  rw [CellStream.cellsFrom, CellStream.cells_pack, gap.position_field, Nat.mul_div_cancel_left _ (by decide), cells,
    List.map_append, List.drop_left' (List.length_map _)]

theorem within (gap : Gap) : gap.position.Within (.pack gap.cells) := by
  obtain ⟨fieldInside, payloadInside⟩ := gap.position_le
  refine ⟨gap.aligned_position, fieldInside, ?_, payloadInside⟩
  rw [gap.fieldsBefore_position]
  exact Position.payload_after _

end Gap

theorem Merge.joined_fst (values counts : List Cell) :
    (joined values counts).map Prod.fst =
      values.filter fun value => counts.any fun count => count.offset = value.offset := by
  rw [joined, List.map_filterMap, ← List.filterMap_eq_filter]
  apply List.filterMap_congr
  intro value _
  cases found : counts.find? fun count => count.offset = value.offset with
  | none =>
    have absent : counts.any (fun count => count.offset = value.offset) = false :=
      List.any_eq_false.mpr (List.find?_eq_none.mp found)
    simp only [Option.guard, absent, Bool.false_eq_true, if_false, Option.map_none]
  | some count =>
    have same := @List.find?_some _ (fun count : Cell => decide (count.offset = value.offset)) _ _ found
    have present : counts.any (fun count => count.offset = value.offset) = true :=
      List.any_eq_true.mpr ⟨count, List.mem_of_find?_eq_some found, same⟩
    simp only [Option.guard, present, if_true, Option.map_some]

/-- A settled place can be read just when there are pairs to come. -/
theorem Place.next?_isSome_iff {place : Place} (sound : place.Sound) :
    place.sync.next?.isSome = true ↔ place.pairs ≠ [] := by
  cases taken : place.sync.next? with
  | none =>
    have empty := pairs_of_next?_none taken
    rw [pairs_sync sound] at empty
    simp [empty]
  | some next =>
    obtain ⟨pair, after⟩ := next
    simp [(sound.next taken).1]

namespace Cursor

/-- How the positions of a cursor go together. A count that was passed is up to the last value passed or before the
next value to come, and each count up to the last value passed was passed. -/
structure Lockstep (row : Row) (cursor : Cursor) : Prop where
  within : ∀ kind, ∀ stream ∈ row.stream? kind, (cursor.position kind).Within stream
  countless : row.counts? = none → cursor.counts = {}
  behind : ∀ counts ∈ row.counts?, ∀ count ∈ counts.fieldsBefore cursor.counts.field,
    (∃ last ∈ (row.values.fieldsBefore cursor.values.field).getLast?, count.offset ≤ last.offset) ∨
      ∃ next ∈ (row.values.fieldsFrom cursor.values.field).head?, count.offset < next.offset
  ahead : ∀ counts ∈ row.counts?, ∀ count ∈ counts.fieldsFrom cursor.counts.field,
    ∀ last ∈ (row.values.fieldsBefore cursor.values.field).getLast?, last.offset < count.offset

/-- The cursor reads the given points and no others: the values at or after its position that have a count of the same
offset, decoded, each with that count. -/
structure Remaining (row : Row) (cursor : Cursor) (points : List Point) : Prop where
  yields : Yields row cursor points
  values : points.map (fun point => (point.timestamp, point.offset, Except.ok point.value)) =
    ((row.values.cellsFrom cursor.values.field).filter fun cell => row.paired cell.1.offset).map fun cell =>
      (row.timestamp cell.1.offset, cell.1.offset, Value.decode cell.1 cell.2)
  countless : row.counts? = none → ∀ point ∈ points, point.count? = none
  counts : ∀ counts ∈ row.counts?, ∀ point ∈ points, ∃ cell ∈ counts.cells, cell.1.offset = point.offset ∧
    ∃ count, point.count? = some count ∧ Value.decode cell.1 cell.2 = .ok count

variable {row : Row} {cursor : Cursor} {place : Place}

section Countless
variable (uncounted : row.counts? = none)
include uncounted

private theorem sync_countless (cursor : Cursor) : cursor.sync row = cursor := by simp only [Cursor.sync, uncounted]

private theorem take?_countless {after : Cursor} {point : Point} (taken : cursor.take? row = some (point, after)) :
    after.counts = cursor.counts := by
  unfold Cursor.take? at taken
  split at taken
  · cases taken
  · split at taken
    · cases taken
    · cases taken
      simp only [uncounted]

private theorem next_countless (cursor : Cursor) : (cursor.next row).2.counts = cursor.counts := by
  unfold Cursor.next
  rw [sync_countless uncounted]
  simp only
  split
  · next found =>
    split at found
    · exact take?_countless uncounted found
    · cases found
  · rfl

private theorem restore_countless (kept : cursor.counts = {}) (token : UInt64) :
    (cursor.restore row token).2.counts = {} := by
  have restored := restore_restored row token cursor
  generalize cursor.restore row token = outcome at restored ⊢
  cases restored with
  | refused => exact kept
  | taken => simp only [countsBeside, uncounted]

/-- Where there are no counts, the position in them stays at its start. -/
theorem Reachable.countless (reached : Reachable row cursor) : cursor.counts = {} := by
  induction reached with
  | start => rw [Cursor.start, sync_countless uncounted]
  | @perform cursor operation _ ih =>
    cases operation with
    | next => exact (next_countless uncounted cursor).trans ih
    | hasNext => exact (congrArg Cursor.counts (sync_countless uncounted cursor)).trans ih
    | peek =>
      simp only [Cursor.perform, peek_cursor, sync_countless uncounted]
      exact ih
    | seek timestamp =>
      refine @skipBefore_induction row (Timestamp.normalize timestamp row.resolution)
        (fun _ cursor => cursor.counts = {}) ?_ ?_ .nil cursor.rewound rfl
      · intro _ cursor kept
        rw [sync_countless uncounted, kept]
      · intro _ cursor kept
        rw [next_countless uncounted, kept]
    | save => exact ih
    | restore token => exact restore_countless uncounted ih token

end Countless

theorem Stands.hasNext_iff (stands : Stands row cursor place) :
    (cursor.hasNext row).1 = true ↔ place.pairs ≠ [] := by
  rw [stands.hasNext]
  exact Place.next?_isSome_iff stands.sound

theorem Stands.next_iff (stands : Stands row cursor place) :
    (cursor.next row).1.isSome = true ↔ place.pairs ≠ [] := by
  rw [stands.next_fst, Option.isSome_map]
  exact Place.next?_isSome_iff stands.sound

theorem Stands.gap_of_stream (stands : Stands row cursor place) {kind : StreamKind} {stream : CellStream}
    (present : stream ∈ row.stream? kind) :
    ∃ gap, place.gap? kind = some gap ∧ stream = .pack gap.cells ∧ cursor.position kind = gap.position := by
  cases kind with
  | value =>
    cases present
    exact ⟨place.values, rfl, stands.values, stands.valuesAt⟩
  | count =>
    have held : row.counts? = some stream := present
    rw [stands.counts, Place.cells, Option.map_map] at held
    obtain ⟨gap, isGap, rfl⟩ := Option.map_eq_some_iff.mp held
    exact ⟨gap, isGap, rfl, stands.countsAt gap isGap⟩

theorem Stands.lockstep (stands : Stands row cursor place) (countless : row.counts? = none → cursor.counts = {}) :
    Lockstep row cursor := by
  have before : row.values.fieldsBefore cursor.values.field = place.values.passed.map Cell.field := by
    rw [stands.values, stands.valuesAt]
    exact place.values.fieldsBefore_position
  have onward : row.values.fieldsFrom cursor.values.field = place.values.pending.map Cell.field := by
    rw [stands.values, stands.valuesAt]
    exact place.values.fieldsFrom_position
  refine ⟨?_, countless, ?_, ?_⟩
  · intro kind stream present
    obtain ⟨gap, _, rfl, position⟩ := stands.gap_of_stream present
    rw [position]
    exact gap.within
  · intro counts present count passed
    obtain ⟨gap, held, rfl, position⟩ := @Stands.gap_of_stream _ _ _ stands .count _ present
    have countsAt : cursor.counts = gap.position := position
    rw [countsAt, gap.fieldsBefore_position] at passed
    obtain ⟨cell, isPassed, rfl⟩ := List.mem_map.mp passed
    rw [before, onward, List.getLast?_map, List.head?_map]
    rcases (stands.sound.beside gap held).behind cell isPassed with ⟨last, isLast, upTo⟩ | ⟨next, isNext, below⟩
    · exact .inl ⟨last.field, Option.mem_map_of_mem _ isLast, upTo⟩
    · exact .inr ⟨next.field, Option.mem_map_of_mem _ isNext, below⟩
  · intro counts present count pending last isLast
    obtain ⟨gap, held, rfl, position⟩ := @Stands.gap_of_stream _ _ _ stands .count _ present
    have countsAt : cursor.counts = gap.position := position
    rw [countsAt, gap.fieldsFrom_position] at pending
    obtain ⟨cell, isPending, rfl⟩ := List.mem_map.mp pending
    rw [before, List.getLast?_map] at isLast
    obtain ⟨value, isValue, rfl⟩ := Option.map_eq_some_iff.mp isLast
    exact (stands.sound.beside gap held).ahead value isValue cell isPending

/-- Only values still to come can be paired with counts still to come, since the counts passed lie before. -/
theorem Stands.pairs_fst (stands : Stands row cursor place) :
    place.pairs.map Prod.fst = place.values.pending.filter fun value => row.paired value.offset := by
  have rowCounts := stands.counts
  unfold Place.pairs
  split
  · next absent =>
    simp only [Place.cells, absent, Option.map_none] at rowCounts
    simp [Row.paired, rowCounts, Function.comp_def]
  · next gap held =>
    simp only [Place.cells, held, Option.map_some] at rowCounts
    have sound := stands.sound
    have beside := sound.beside gap held
    rw [List.map_map, Function.comp_def, Merge.joined_fst]
    apply List.filter_congr
    intro value pending
    have notPassed : (gap.passed.any fun count => count.offset = value.offset) = false := by
      refine List.any_eq_false.mpr ?_
      intro count passed
      have below := beside.behind_value sound.values pending passed
      simpa using Nat.ne_of_lt below
    have passedAway : ((gap.passed.map Cell.field).any fun count => count.offset = value.offset) = false := by
      rw [List.any_map]
      exact notPassed
    simp only [Row.paired, rowCounts, Option.all_some, CellStream.fieldList_pack, Gap.cells, List.map_append,
      List.any_append, passedAway, Bool.false_or, List.any_map]
    rfl

theorem Stands.remaining (stands : Stands row cursor place) : Remaining row cursor (cursor.drain row).1 := by
  have rowCounts := stands.counts
  have yields := yields_drain row cursor
  rw [stands.drain] at yields ⊢
  refine ⟨yields, ?_, ?_, ?_⟩
  · have ahead := place.values.cellsFrom_position
    have rowValues : row.values = .pack place.values.cells := stands.values
    rw [rowValues, stands.valuesAt, ahead, List.filter_map, List.map_map, List.map_map]
    have read : (place.pairs.map Prod.fst).map (fun value : Cell =>
          (row.timestamp value.offset, value.offset, (Except.ok value.value : Except CellError Value))) =
        (place.values.pending.filter fun value => row.paired value.offset).map fun value =>
          (row.timestamp value.offset, value.offset, Value.decode value.field value.payload) := by
      rw [stands.pairs_fst]
      simp only [Cell.decode_value]
    rwa [List.map_map] at read
  · intro countless point member
    obtain ⟨pair, isPair, rfl⟩ := List.mem_map.mp member
    have uncounted : place.counts? = none := by
      simpa [Place.cells, countless] using rowCounts.symm
    simp only [Place.pairs, uncounted] at isPair
    obtain ⟨value, _, rfl⟩ := List.mem_map.mp isPair
    rfl
  · intro counts present point member
    obtain ⟨gap, held, rfl, _⟩ := @Stands.gap_of_stream _ _ _ stands .count _ present
    have held : place.counts? = some gap := held
    obtain ⟨pair, isPair, rfl⟩ := List.mem_map.mp member
    have increasing := stands.sound.counts gap held
    simp only [Place.pairs, held] at isPair
    obtain ⟨⟨value, count⟩, joined, rfl⟩ := List.mem_map.mp isPair
    obtain ⟨_, isCount, same⟩ := (Merge.mem_joined_iff increasing.pending).mp joined
    refine ⟨(count.field, count.payload), ?_, same, count.value, rfl, count.decode_value⟩
    rw [CellStream.cells_pack]
    exact List.mem_map_of_mem (List.mem_append_right _ isCount)

/-- Wherever a cursor of a row was led, its positions go together, a point is read whenever there is said to be one,
and the points still to come are those that its position in the values tells. -/
theorem reachable_in_lockstep (frozen : row.Frozen) (reached : Reachable row cursor) :
    Lockstep row cursor ∧
      ((cursor.hasNext row).1 = (cursor.next row).1.isSome ∧
        (cursor.hasNext row).1 = ((cursor.hasNext row).2.next row).1.isSome) ∧
      ∃ points, Remaining row cursor points := by
  obtain ⟨cells, packs⟩ := frozen.packs
  obtain ⟨place, stands, _⟩ := reached.stands packs
  have asked : Stands row (cursor.hasNext row).2 place.sync := by
    rw [stands.hasNext]
    exact stands.sync
  have again := asked.next_iff
  rw [Place.pairs_sync stands.sound] at again
  refine ⟨stands.lockstep fun uncounted => reached.countless uncounted, ⟨?_, ?_⟩, _, stands.remaining⟩
  · exact Bool.eq_iff_iff.mpr (stands.hasNext_iff.trans stands.next_iff.symm)
  · exact Bool.eq_iff_iff.mpr (stands.hasNext_iff.trans again.symm)

/-- A cursor that was sent to the second pair, and then refused a word. -/
theorem reachable_in_lockstep_gappy :
    Gappy.row.Frozen ∧ Reachable Gappy.row (((start Gappy.row).seek Gappy.row 181).restore Gappy.row 1).2 ∧
      (((start Gappy.row).seek Gappy.row 181).restore Gappy.row 1).1 = .error (.misaligned 0 1 0) ∧
      (((start Gappy.row).seek Gappy.row 181).restore Gappy.row 1).2.values = ⟨4, 3⟩ ∧
      Lockstep Gappy.row (((start Gappy.row).seek Gappy.row 181).restore Gappy.row 1).2 ∧
      ∃ points, Remaining Gappy.row (((start Gappy.row).seek Gappy.row 181).restore Gappy.row 1).2 points := by
  have reached : Reachable Gappy.row (((start Gappy.row).seek Gappy.row 181).restore Gappy.row 1).2 :=
    .perform (.restore 1) (.perform (.seek 181) .start)
  obtain ⟨lockstep, _, remaining⟩ := reachable_in_lockstep Gappy.frozen reached
  exact ⟨Gappy.frozen, reached, by decide +kernel, by decide +kernel, lockstep, remaining⟩

end Cursor

end Rollup
