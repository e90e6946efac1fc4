import Rollup.Cursor
import Rollup.Proofs.Place

/-! A cursor's byte positions stand for a place in its row. What a cursor answers is read off the
place, and moving the cursor moves the place. -/

namespace Rollup

namespace Position

private theorem foldl_past (fields : List Field) (position : Position) :
    fields.foldl past position =
      ⟨position.field + Field.size * fields.length, position.payload + (fields.map Field.width).sum⟩ := by
  induction fields generalizing position with
  | nil => rfl
  | cons field fields ih =>
    rw [List.foldl_cons, ih, past, List.length_cons, List.map_cons, List.sum_cons, Nat.mul_succ]
    simp only [Position.mk.injEq]
    omega

theorem field_after (fields : List Field) : (after fields).field = Field.size * fields.length := by
  rw [after, foldl_past, Nat.zero_add]

theorem payload_after (fields : List Field) : (after fields).payload = (fields.map Field.width).sum := by
  rw [after, foldl_past]
  exact Nat.zero_add _

theorem after_fields (cells : List Cell) :
    after (cells.map Cell.field) =
      ⟨(CellStream.pack cells).fields.length, (CellStream.pack cells).payloads.length⟩ := by
  rw [after, foldl_past, CellStream.length_fields_pack, CellStream.length_payloads_pack, List.length_map, List.map_map,
    Nat.zero_add, Nat.zero_add]
  rfl

end Position

def Cell.value (cell : Cell) : Value := .ofPayload cell.field.kind cell.payload

theorem Cell.decode_value (cell : Cell) : Value.decode cell.field cell.payload = .ok cell.value := by
  rw [Value.decode, cell.fits, Cell.value]

def Row.point (row : Row) (pair : Cell × Option Cell) : Point :=
  { timestamp := row.timestamp pair.1.offset
    offset := pair.1.offset
    value := pair.1.value
    count? := pair.2.map Cell.value }

namespace Gap

def position (gap : Gap) : Position := .after (gap.passed.map Cell.field)

theorem position_concat (passed pending rest : List Cell) (cell : Cell) :
    (⟨passed ++ [cell], rest⟩ : Gap).position = (⟨passed, pending⟩ : Gap).position.past cell.field := by
  simp only [position, Position.after, List.map_append, List.map_cons, List.map_nil, List.foldl_append,
    List.foldl_cons, List.foldl_nil]

theorem fieldAt?_position (gap : Gap) :
    (CellStream.pack gap.cells).fieldAt? gap.position.field = gap.pending.head?.map Cell.field := by
  rw [position, Position.after_fields]
  exact CellStream.fieldAt?_pack gap.passed gap.pending

theorem valueAt?_position (passed pending : List Cell) (cell : Cell) :
    Cursor.valueAt? (.pack (Gap.cells ⟨passed, cell :: pending⟩)) (position ⟨passed, cell :: pending⟩).payload
      cell.field = some cell.value := by
  rw [position, Position.after_fields, Cursor.valueAt?]
  simp only [Gap.cells, CellStream.payloadAt?_pack, Option.map_some, Cell.value]

theorem position_field (gap : Gap) : gap.position.field = Field.size * gap.passed.length := by
  rw [position, Position.after_fields, CellStream.length_fields_pack]

theorem aligned_position (gap : Gap) : gap.position.field % Field.size = 0 := by
  rw [position_field]
  exact Nat.mul_mod_right _ _

theorem position_lt_iff (gap : Gap) :
    gap.position.field < (CellStream.pack gap.cells).fields.length ↔ gap.pending ≠ [] := by
  rw [position_field, CellStream.length_fields_pack, Gap.cells, List.length_append, Nat.mul_add]
  cases gap.pending with
  | nil => simp
  | cons cell pending => simp [Field.size]

end Gap

namespace Cursor

private theorem align_eq (values counts : CellStream) (cursor : Cursor) :
    cursor.align values counts =
      match values.fieldAt? cursor.values.field, counts.fieldAt? cursor.counts.field with
      | some value, some count =>
        if value.offset = count.offset then cursor
        else if count.offset < value.offset then align values counts (cursor.skipCount count)
        else align values counts (cursor.skipValue value)
      | _, _ => cursor := by
  rw [align]
  split <;> simp only [*]

theorem skipBefore_eq (row : Row) (target : UInt64) (cursor : Cursor) :
    cursor.skipBefore row target =
      match if (cursor.sync row).ready row then row.values.fieldAt? (cursor.sync row).values.field else none with
      | none => cursor.sync row
      | some field =>
        if row.timestamp field.offset < target then
          match cursor.next row with
          | (none, after) => after
          | (some _, after) => after.skipBefore row target
        else cursor.sync row := by
  rw [skipBefore]
  generalize (if (cursor.sync row).ready row then row.values.fieldAt? (cursor.sync row).values.field else none) = field?
  cases field? with
  | none => rfl
  | some field =>
    dsimp only
    split
    · split <;> simp only [*]
    · rfl

theorem peek_cursor (row : Row) (cursor : Cursor) : (cursor.peek row).2 = cursor.sync row := by
  unfold peek
  simp only
  split <;> rfl

/-- Aligning the byte positions is settling the gaps they stand for. -/
theorem align_settle (values counts : Gap) (cursor : Cursor) (valuesAt : cursor.values = values.position)
    (countsAt : cursor.counts = counts.position) :
    (cursor.align (.pack values.cells) (.pack counts.cells)).values = (Merge.settle values counts).1.position ∧
      (cursor.align (.pack values.cells) (.pack counts.cells)).counts =
        (Merge.settle values counts).2.position := by
  fun_induction Merge.settle values counts generalizing cursor with
  | case1 valuesPassed value values countsPassed count counts same =>
    rw [align_eq, valuesAt, countsAt, Gap.fieldAt?_position, Gap.fieldAt?_position]
    have equal : value.field.offset = count.field.offset := same
    simp only [List.head?_cons, Option.map_some, equal, if_true]
    exact ⟨valuesAt, countsAt⟩
  | case2 valuesPassed value values countsPassed count counts different smaller ih =>
    rw [align_eq, valuesAt, countsAt, Gap.fieldAt?_position, Gap.fieldAt?_position]
    have unequal : ¬ value.field.offset = count.field.offset := different
    have below : count.field.offset < value.field.offset := smaller
    simp only [List.head?_cons, Option.map_some, unequal, below, if_true, if_false]
    have moved := ih (cursor.skipCount count.field) valuesAt (by
      rw [Gap.position_concat countsPassed (count :: counts), ← countsAt]
      rfl)
    rwa [Gap.cells_pass] at moved
  | case3 valuesPassed value values countsPassed count counts different notSmaller ih =>
    rw [align_eq, valuesAt, countsAt, Gap.fieldAt?_position, Gap.fieldAt?_position]
    have unequal : ¬ value.field.offset = count.field.offset := different
    have notBelow : ¬ count.field.offset < value.field.offset := notSmaller
    simp only [List.head?_cons, Option.map_some, unequal, notBelow, if_false]
    have moved := ih (cursor.skipValue value.field) (by
      rw [Gap.position_concat valuesPassed (value :: values), ← valuesAt]
      rfl) countsAt
    rwa [Gap.cells_pass] at moved
  | case4 values counts ended =>
    rw [align_eq, valuesAt, countsAt, Gap.fieldAt?_position, Gap.fieldAt?_position]
    obtain ⟨valuesPassed, valuesPending⟩ := values
    obtain ⟨countsPassed, countsPending⟩ := counts
    cases valuesPending with
    | nil => exact ⟨valuesAt, countsAt⟩
    | cons value values =>
      cases countsPending with
      | nil => exact ⟨valuesAt, countsAt⟩
      | cons count counts => exact (ended _ _ _ _ _ _ rfl rfl).elim

/-- The row is packed from the cells of the place, and the cursor is where the place is. The counts
position of a row without counts does not matter. -/
structure Stands (row : Row) (cursor : Cursor) (place : Place) : Prop where
  values : row.values = .pack place.cells.1
  counts : row.counts? = place.cells.2.map .pack
  valuesAt : cursor.values = place.values.position
  countsAt : ∀ counts ∈ place.counts?, cursor.counts = counts.position
  sound : place.Sound

namespace Stands
variable {row : Row} {cursor : Cursor} {place : Place}

theorem sync (stands : Stands row cursor place) : Stands row (cursor.sync row) place.sync := by
  have cells := place.cells_sync
  have rowCounts := stands.counts
  cases held : place.counts? with
  | none =>
    simp only [Place.cells, held, Option.map_none] at rowCounts
    have still : place.sync = place := by simp only [Place.sync, held]
    have unmoved : cursor.sync row = cursor := by simp only [Cursor.sync, rowCounts]
    rw [still, unmoved]
    exact stands
  | some counts =>
    simp only [Place.cells, held, Option.map_some] at rowCounts
    have settled := Place.sync_counted held
    have aligned : cursor.sync row = cursor.align (.pack place.values.cells) (.pack counts.cells) := by
      simp only [Cursor.sync, rowCounts, stands.values, Place.cells]
    obtain ⟨valuesAt, countsAt⟩ :=
      align_settle place.values counts cursor stands.valuesAt (stands.countsAt counts held)
    refine ⟨?_, ?_, ?_, ?_, stands.sound.sync⟩
    · rw [cells]
      exact stands.values
    · rw [cells]
      exact stands.counts
    · rw [settled, aligned]
      exact valuesAt
    · intro gap member
      rw [settled] at member
      cases member
      rw [aligned]
      exact countsAt

theorem ready (stands : Stands row cursor place) : cursor.ready row = place.next?.isSome := by
  obtain ⟨⟨passed, pending⟩, counts?⟩ := place
  have valuesLeft := Gap.position_lt_iff ⟨passed, pending⟩
  have rowCounts := stands.counts
  unfold Cursor.ready
  rw [stands.values, stands.valuesAt]
  simp only [Place.cells]
  cases counts? with
  | none =>
    simp only [Place.cells, Option.map_none] at rowCounts
    simp only [rowCounts, Bool.and_true]
    cases pending with
    | nil => simp [Place.next?, valuesLeft]
    | cons value values => simp [Place.next?, valuesLeft]
  | some counts =>
    have countsLeft := Gap.position_lt_iff counts
    simp only [Place.cells, Option.map_some] at rowCounts
    simp only [rowCounts, stands.countsAt counts rfl]
    obtain ⟨countsPassed, countsPending⟩ := counts
    cases pending with
    | nil => simp [Place.next?, valuesLeft]
    | cons value values => cases countsPending <;> simp [Place.next?, valuesLeft, countsLeft]

theorem fieldAt? (stands : Stands row cursor place) :
    row.values.fieldAt? cursor.values.field = place.values.pending.head?.map Cell.field := by
  rw [stands.values, stands.valuesAt]
  exact place.values.fieldAt?_position

theorem not_ready (stands : Stands row cursor place) (ended : place.next? = none) : cursor.ready row = false := by
  rw [stands.ready, ended, Option.isSome_none]

/-- The field that is read for the next point is that of its value. -/
theorem ready_of_next? {pair : Cell × Option Cell} {after : Place} (stands : Stands row cursor place)
    (taken : place.next? = some (pair, after)) :
    cursor.ready row = true ∧ row.values.fieldAt? cursor.values.field = some pair.1.field := by
  rw [stands.ready, stands.fieldAt?, Place.head?_of_next? taken, taken]
  exact ⟨rfl, rfl⟩

private theorem valueAt? {passed pending : List Cell} {value : Cell} {counts? : Option Gap}
    (stands : Stands row cursor ⟨⟨passed, value :: pending⟩, counts?⟩) :
    Cursor.valueAt? row.values cursor.values.payload value.field = some value.value := by
  rw [stands.values, stands.valuesAt]
  exact Gap.valueAt?_position passed pending value

private theorem takeCount {values : Gap} {passed pending : List Cell} {count : Cell}
    (stands : Stands row cursor ⟨values, some ⟨passed, count :: pending⟩⟩) :
    cursor.takeCount row = (some count.value, Gap.position ⟨passed ++ [count], pending⟩) := by
  have rowCounts : row.counts? = some (.pack (Gap.cells ⟨passed, count :: pending⟩)) := stands.counts
  have countsAt : cursor.counts = Gap.position ⟨passed, count :: pending⟩ := stands.countsAt _ rfl
  have fieldAt := Gap.fieldAt?_position ⟨passed, count :: pending⟩
  have valueAt := Gap.valueAt?_position passed pending count
  simp only [List.head?_cons, Option.map_some] at fieldAt
  simp only [Cursor.takeCount, rowCounts, countsAt, fieldAt, valueAt, Gap.position_concat passed (count :: pending)]

theorem take? {pair : Cell × Option Cell} {after : Place} (stands : Stands row cursor place)
    (taken : place.next? = some (pair, after)) (sound : after.Sound) :
    ∃ moved, cursor.take? row = some (row.point pair, moved) ∧ Stands row moved after ∧
      moved.current? = some (row.point pair) := by
  have cells := Place.cells_next? taken
  have rowValues : row.values = .pack after.cells.1 := by rw [cells]; exact stands.values
  have rowCounts : row.counts? = after.cells.2.map .pack := by rw [cells]; exact stands.counts
  have valuesAt := stands.valuesAt
  have fieldAt := stands.fieldAt?
  unfold Place.next? at taken
  split at taken
  · next passed value values =>
    cases taken
    have countless : row.counts? = none := rowCounts
    simp only [List.head?_cons, Option.map_some] at fieldAt
    simp only [Cursor.take?, fieldAt, stands.valueAt?, Cursor.takeCount, countless]
    refine ⟨_, rfl, ⟨rowValues, rowCounts, ?_, ?_, sound⟩, rfl⟩
    · rw [Gap.position_concat passed (value :: values), ← valuesAt]
    · intro counts member
      cases member
  · next passed value values countsPassed count counts =>
    cases taken
    simp only [List.head?_cons, Option.map_some] at fieldAt
    simp only [Cursor.take?, fieldAt, stands.valueAt?, stands.takeCount]
    refine ⟨_, rfl, ⟨rowValues, rowCounts, ?_, ?_, sound⟩, rfl⟩
    · rw [Gap.position_concat passed (value :: values), ← valuesAt]
    · intro gap member
      cases member
      rfl
  · cases taken

theorem hasNext (stands : Stands row cursor place) :
    cursor.hasNext row = (place.sync.next?.isSome, cursor.sync row) := by
  rw [Cursor.hasNext, stands.sync.ready]

theorem next_none (stands : Stands row cursor place) (ended : place.sync.next? = none) :
    cursor.next row = (none, cursor.sync row) := by
  simp only [Cursor.next, stands.sync.not_ready ended, Bool.false_eq_true, if_false]

theorem next_some {pair : Cell × Option Cell} {after : Place} (stands : Stands row cursor place)
    (taken : place.sync.next? = some (pair, after)) :
    ∃ moved, cursor.next row = (some (row.point pair), moved) ∧ Stands row moved after ∧
      moved.current? = some (row.point pair) := by
  obtain ⟨ready, _⟩ := stands.sync.ready_of_next? taken
  obtain ⟨moved, read, kept, current⟩ := stands.sync.take? taken (stands.sound.next taken).2
  refine ⟨moved, ?_, kept, current⟩
  simp only [Cursor.next, ready, if_true, read]

theorem peek (stands : Stands row cursor place) :
    cursor.peek row =
      (match place.sync.next? with
        | some (pair, _) => .ok (row.timestamp pair.1.offset)
        | none => .error (.outOfBounds place.sync.values.position.field row.values.fields.length),
        cursor.sync row) := by
  cases taken : place.sync.next? with
  | none => simp only [Cursor.peek, stands.sync.not_ready taken, Bool.false_eq_true, if_false, stands.sync.valuesAt]
  | some next =>
    obtain ⟨pair, after⟩ := next
    obtain ⟨ready, fieldAt⟩ := stands.sync.ready_of_next? taken
    simp only [Cursor.peek, ready, if_true, fieldAt, Cell.offset]

theorem next_fst (stands : Stands row cursor place) :
    (cursor.next row).1 = place.sync.next?.map fun next => row.point next.1 := by
  cases taken : place.sync.next? with
  | none => rw [stands.next_none taken, Option.map_none]
  | some next =>
    obtain ⟨moved, read, _⟩ := stands.next_some taken
    rw [read, Option.map_some]

theorem next_fst_sync (stands : Stands row cursor place) :
    ((cursor.sync row).next row).1 = (cursor.next row).1 := by
  rw [stands.sync.next_fst, stands.next_fst, Place.sync_sync]

theorem peek_ok_iff (stands : Stands row cursor place) {timestamp : UInt64} :
    (cursor.peek row).1 = .ok timestamp ↔
      ∃ point, (cursor.next row).1 = some point ∧ point.timestamp = timestamp := by
  rw [stands.peek, stands.next_fst]
  cases place.sync.next? with
  | none => simp
  | some next => simp [Row.point]

theorem skipBefore (stands : Stands row cursor place) (target : UInt64) :
    Stands row (cursor.skipBefore row target)
      (place.skip fun value => row.timestamp value.offset < target) := by
  fun_induction Place.skip (fun value => row.timestamp value.offset < target) place generalizing cursor with
  | case1 place ended =>
    rw [skipBefore_eq]
    simp only [stands.sync.not_ready ended, Bool.false_eq_true, if_false]
    exact stands.sync
  | case2 place pair after taken early ih =>
    obtain ⟨ready, fieldAt⟩ := stands.sync.ready_of_next? taken
    obtain ⟨moved, read, kept, _⟩ := stands.next_some taken
    have before : row.timestamp pair.1.field.offset < target := of_decide_eq_true early
    rw [skipBefore_eq]
    simp only [ready, if_true, fieldAt, before, read]
    exact ih kept
  | case3 place pair after taken late =>
    obtain ⟨ready, fieldAt⟩ := stands.sync.ready_of_next? taken
    have notBefore : ¬ row.timestamp pair.1.field.offset < target := by
      intro before
      exact late (decide_eq_true before)
    rw [skipBefore_eq]
    simp only [ready, if_true, fieldAt, notBefore, if_false]
    exact stands.sync

end Stands

end Cursor

end Rollup
