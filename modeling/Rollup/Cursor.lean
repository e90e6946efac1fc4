import Rollup.Point
import Rollup.Row

/-! Reading positions in a row. A cursor walks the values and, where there are any, the counts in
lockstep, and stops at the offsets that both streams have. A cell without a partner is passed over
and counted, once however often the cursor comes back to it. -/

namespace Rollup

/-- Byte positions just past the cells read so far. -/
structure Position where
  field : Nat := 0
  payload : Nat := 0
  deriving DecidableEq, Repr

namespace Position

def past (position : Position) (field : Field) : Position :=
  ⟨position.field + Field.size, position.payload + field.width⟩

/-- The position past the given cells at the front of a stream. -/
def after (fields : List Field) : Position := fields.foldl past {}

end Position

structure Cursor where
  values : Position := {}
  counts : Position := {}
  /-- The point read last. -/
  current? : Option Point := none
  skipped : Nat := 0
  /-- Cells whose field starts before its stream's mark have been counted as skipped. -/
  valueMark : Nat := 0
  countMark : Nat := 0
  deriving DecidableEq, Repr

namespace Cursor

def skipValue (cursor : Cursor) (field : Field) : Cursor :=
  let fresh : Bool := cursor.valueMark ≤ cursor.values.field
  { cursor with
    values := cursor.values.past field
    skipped := if fresh then cursor.skipped + 1 else cursor.skipped
    valueMark := if fresh then cursor.values.field + Field.size else cursor.valueMark }

def skipCount (cursor : Cursor) (field : Field) : Cursor :=
  let fresh : Bool := cursor.countMark ≤ cursor.counts.field
  { cursor with
    counts := cursor.counts.past field
    skipped := if fresh then cursor.skipped + 1 else cursor.skipped
    countMark := if fresh then cursor.counts.field + Field.size else cursor.countMark }

/-- Passes over the smaller of two unequal offsets until they agree or a stream ends. -/
def align (values counts : CellStream) (cursor : Cursor) : Cursor :=
  match _value : values.fieldAt? cursor.values.field,
      _count : counts.fieldAt? cursor.counts.field with
  | some value, some count =>
    if value.offset = count.offset then cursor
    else if count.offset < value.offset then align values counts (cursor.skipCount count)
    else align values counts (cursor.skipValue value)
  | _, _ => cursor
termination_by
  (values.fields.length - cursor.values.field) + (counts.fields.length - cursor.counts.field)
decreasing_by
  all_goals
    have valueBound := CellStream.bound_of_fieldAt? ‹values.fieldAt? _ = _›
    have countBound := CellStream.bound_of_fieldAt? ‹counts.fieldAt? _ = _›
    simp only [skipValue, skipCount, Position.past, Field.size] at *
    omega

def sync (row : Row) (cursor : Cursor) : Cursor :=
  match row.counts? with
  | none => cursor
  | some counts => cursor.align row.values counts

/-- Whether no stream of the row has come to its end. -/
def ready (row : Row) (cursor : Cursor) : Bool :=
  cursor.values.field < row.values.fields.length &&
    match row.counts? with
    | none => true
    | some counts => cursor.counts.field < counts.fields.length

/-- Whether there is another point, and the cursor moved up to it. -/
def hasNext (row : Row) (cursor : Cursor) : Bool × Cursor :=
  let cursor := cursor.sync row
  (cursor.ready row, cursor)

/-- The value whose payload starts at a position. -/
def valueAt? (stream : CellStream) (start : Nat) (field : Field) : Option Value :=
  (stream.payloadAt? start field.width).map (Value.ofPayload field.kind)

/-- The count at the cursor, and the position past it. -/
def takeCount (row : Row) (cursor : Cursor) : Option Value × Position :=
  match row.counts? with
  | none => (none, cursor.counts)
  | some counts =>
    match counts.fieldAt? cursor.counts.field with
    | none => (none, cursor.counts)
    | some field => (valueAt? counts cursor.counts.payload field, cursor.counts.past field)

/-- The point at a cursor that stands on one, and the cursor past it. -/
def take? (row : Row) (cursor : Cursor) : Option (Point × Cursor) :=
  match row.values.fieldAt? cursor.values.field with
  | none => none
  | some field =>
    match valueAt? row.values cursor.values.payload field with
    | none => none
    | some value =>
      let (count?, counts) := cursor.takeCount row
      let point : Point :=
        { timestamp := row.timestamp field.offset, offset := field.offset, value, count? }
      let values := cursor.values.past field
      some (point, { cursor with values, counts, current? := some point })

def next (row : Row) (cursor : Cursor) : Option Point × Cursor :=
  let cursor := cursor.sync row
  match if cursor.ready row then cursor.take? row else none with
  | some (point, cursor) => (some point, cursor)
  | none => (none, cursor)

theorem align_values_le (values counts : CellStream) (cursor : Cursor) :
    cursor.values.field ≤ (cursor.align values counts).values.field := by
  fun_induction align values counts cursor with
  | case1 => exact Nat.le_refl _
  | case2 cursor value _ count _ _ _ ih => simpa [skipCount] using ih
  | case3 cursor value _ count _ _ _ ih =>
    refine Nat.le_trans ?_ ih
    simp [skipValue, Position.past]
  | case4 => exact Nat.le_refl _

theorem sync_values_le (row : Row) (cursor : Cursor) :
    cursor.values.field ≤ (cursor.sync row).values.field := by
  unfold sync
  split
  · exact Nat.le_refl _
  · exact align_values_le _ _ _

theorem take?_values {row : Row} {cursor after : Cursor} {point : Point}
    (taken : cursor.take? row = some (point, after)) :
    after.values.field = cursor.values.field + Field.size ∧
      after.values.field ≤ row.values.fields.length := by
  unfold take? at taken
  split at taken
  · simp at taken
  · next field found =>
    split at taken
    · simp at taken
    · simp only [Option.some.injEq, Prod.mk.injEq] at taken
      have bound := CellStream.bound_of_fieldAt? found
      rw [← taken.2]
      exact ⟨rfl, bound⟩

/-- A point read is a value cell left behind. -/
theorem next_values {row : Row} {cursor after : Cursor} {point : Point}
    (taken : cursor.next row = (some point, after)) :
    cursor.values.field < after.values.field ∧
      after.values.field ≤ row.values.fields.length := by
  have synced := sync_values_le row cursor
  unfold next at taken
  simp only at taken
  split at taken
  · next found =>
    simp only [Prod.mk.injEq, Option.some.injEq] at taken
    split at found
    · have bounds := take?_values found
      rw [taken.2] at bounds
      simp only [Field.size] at bounds
      omega
    · simp at found
  · simp at taken

/-- All points still to come, and the cursor behind them. -/
def drain (row : Row) (cursor : Cursor) : List Point × Cursor :=
  match _taken : cursor.next row with
  | (none, cursor) => ([], cursor)
  | (some point, after) =>
    let (points, last) := drain row after
    (point :: points, last)
termination_by row.values.fields.length - cursor.values.field
decreasing_by
  have bounds := next_values ‹cursor.next row = _›
  omega

/-- A cursor before the first point of a row. -/
def start (row : Row) : Cursor := sync row {}

/-- Passes over points before a timestamp. -/
def skipBefore (row : Row) (target : UInt64) (cursor : Cursor) : Cursor :=
  let synced := cursor.sync row
  match if synced.ready row then row.values.fieldAt? synced.values.field else none with
  | none => synced
  | some field =>
    if row.timestamp field.offset < target then
      match _taken : cursor.next row with
      | (none, cursor) => cursor
      | (some _, after) => skipBefore row target after
    else synced
termination_by row.values.fields.length - cursor.values.field
decreasing_by
  have bounds := next_values ‹cursor.next row = _›
  omega

/-- Moves to the first point at or after a timestamp, wherever the cursor was before. -/
def seek (row : Row) (timestamp : UInt64) (cursor : Cursor) : Cursor :=
  let fresh : Cursor :=
    { skipped := cursor.skipped, valueMark := cursor.valueMark, countMark := cursor.countMark }
  let target := Timestamp.normalize timestamp row.resolution
  { skipBefore row target fresh with current? := none }

/-- One more than the largest number in half a word. -/
def half : Nat := 0x100000000

/-- The position in the values: the field's in the high half of a word, the payload's in the low. -/
def save (cursor : Cursor) : UInt64 :=
  UInt64.ofNat (cursor.values.field * half + cursor.values.payload % half)

/-- The position in the counts that goes with one in the values: past every count cell up to the
value cell read last. -/
def countsBeside (row : Row) (field : Nat) : Position :=
  let last? := if field < Field.size then none else row.values.fieldAt? (field - Field.size)
  match row.counts?, last? with
  | some counts, some last =>
    .after (counts.fieldList.takeWhile fun count => count.offset ≤ last.offset)
  | _, _ => {}

/-- Goes back to a saved position. A word that is no position of the row changes nothing. -/
def restore (row : Row) (state : UInt64) (cursor : Cursor) : Except ReadError Unit × Cursor :=
  let field := state.toNat / half
  let payload := state.toNat % half
  let fieldsLength := row.values.fields.length
  let payloadsLength := row.values.payloads.length
  let expected := (Position.after (Field.list (row.values.fields.take field))).payload
  if field > fieldsLength ∨ field % Field.size ≠ 0 then
    (.error (.outOfBounds field fieldsLength), cursor)
  else if payload > payloadsLength then (.error (.outOfBounds payload payloadsLength), cursor)
  else if payload ≠ expected then (.error (.misaligned field payload expected), cursor)
  else
    (.ok (), { cursor with
      values := ⟨field, payload⟩
      counts := countsBeside row field
      current? := none })

/-- The timestamp of the next point, which stays to be read. -/
def peek (row : Row) (cursor : Cursor) : Except ReadError UInt64 × Cursor :=
  let cursor := cursor.sync row
  match if cursor.ready row then row.values.fieldAt? cursor.values.field else none with
  | some field => (.ok (row.timestamp field.offset), cursor)
  | none => (.error (.outOfBounds cursor.values.field row.values.fields.length), cursor)

end Cursor

namespace Row

/-- The points of a row in order. -/
def points (row : Row) : List Point := ((Cursor.start row).drain row).1

/-- Number of points; without counts every value cell is one. -/
def size (row : Row) : Nat := if row.counted then row.points.length else row.values.size

/-- The timestamp of a point by its index. The place of a field is a word, and it stays at the
largest word once it gets there. -/
def timestampAt (row : Row) (index : Nat) : Except ReadError UInt64 :=
  let start := min (Field.size * index) Word.largest
  let found :=
    if row.counted then row.points[index]?.map (·.timestamp)
    else (row.values.fieldAt? start).map fun field => row.timestamp field.offset
  match found with
  | some timestamp => .ok timestamp
  | none => .error (.outOfBounds index row.size)

end Row

end Rollup
