import Rollup.Proofs.Resume

/-! Asking whether there is another point, or when it is, lines the streams up. Every move would do that first or starts
from elsewhere, so no move tells whether a cursor was asked before, and an answer holds for the point that comes next. -/

namespace Rollup

namespace Cursor

/-- Whether the operation is there to move the cursor, and not only to ask something of it. -/
def Operation.moves : Operation → Bool
  | .next | .seek _ | .restore _ => true
  | .hasNext | .peek | .save => false

/-- What the moves of a run answer, and the point that is current after each of them. -/
def watch (row : Row) (cursor : Cursor) : List Operation → List (Answer × Option Point)
  | [] => []
  | operation :: operations =>
    let (answer, after) := cursor.perform row operation
    if operation.moves then (answer, after.current?) :: watch row after operations else watch row after operations

/-- What a cursor tells about the next point is what is read then. Asking keeps the current point. -/
structure Foresees (row : Row) (cursor : Cursor) : Prop where
  more : (cursor.hasNext row).1 = true ↔ ((cursor.hasNext row).2.next row).1.isSome = true
  timestamp : ∀ timestamp, (cursor.peek row).1 = .ok timestamp ↔
    ∃ point, ((cursor.peek row).2.next row).1 = some point ∧ point.timestamp = timestamp
  ended : (∃ index length, (cursor.peek row).1 = .error (.outOfBounds index length)) ↔
    ((cursor.peek row).2.next row).1 = none
  current : (cursor.hasNext row).2.current? = cursor.current? ∧ (cursor.peek row).2.current? = cursor.current?

theorem align_current? (values counts : CellStream) (cursor : Cursor) :
    (cursor.align values counts).current? = cursor.current? := by
  fun_induction align values counts cursor with
  | case1 => rfl
  | case2 _ _ _ _ _ _ _ ih => exact ih
  | case3 _ _ _ _ _ _ _ ih => exact ih
  | case4 => rfl

@[simp] theorem sync_current? (row : Row) (cursor : Cursor) : (cursor.sync row).current? = cursor.current? := by
  unfold sync
  split
  · rfl
  · exact align_current? _ _ cursor

variable {row : Row} {first second cursor : Cursor} {place : Place}

/-- The point that was read is current, and the old one if there was none to read. -/
theorem Stands.next_current? (stands : Stands row cursor place) :
    (cursor.next row).2.current? = (cursor.next row).1.or cursor.current? := by
  cases taken : place.sync.next? with
  | none => rw [stands.next_none taken, sync_current?, Option.none_or]
  | some next =>
    obtain ⟨moved, read, _, current⟩ := stands.next_some taken
    rw [read, current, Option.some_or]

theorem Stands.foresees (stands : Stands row cursor place) : Foresees row cursor := by
  constructor
  · rw [stands.hasNext, stands.next_fst_sync, stands.next_fst, Option.isSome_map]
  · intro timestamp
    rw [peek_cursor, stands.next_fst_sync]
    exact stands.peek_ok_iff
  · rw [peek_cursor, stands.next_fst_sync, stands.peek, stands.next_fst]
    cases place.sync.next? with
    | none => simp
    | some next => simp
  · rw [stands.hasNext, peek_cursor]
    exact ⟨sync_current? row cursor, sync_current? row cursor⟩

/-- No move tells the cursors apart, and the same point is current. -/
structure Abreast (row : Row) (first second : Cursor) : Prop where
  alongside : Alongside row first second
  current : first.current? = second.current?

namespace Abreast

theorem refl (stands : Stands row cursor place) : Abreast row cursor cursor := ⟨⟨place, place, stands, stands, rfl⟩, rfl⟩

private theorem next (abreast : Abreast row first second) :
    (first.next row).1 = (second.next row).1 ∧ Abreast row (first.next row).2 (second.next row).2 := by
  obtain ⟨same, together⟩ := abreast.alongside.next
  obtain ⟨place, other, left, right, _⟩ := abreast.alongside
  refine ⟨same, together.alongside, ?_⟩
  rw [left.next_current?, right.next_current?, same, abreast.current]

private theorem restore (abreast : Abreast row first second) (token : UInt64) :
    (first.restore row token).1 = (second.restore row token).1 ∧
      Abreast row (first.restore row token).2 (second.restore row token).2 := by
  refine restore_keeps abreast fun restored other => ⟨(abreast.alongside.restore restored).alongside, ?_⟩
  rw [current?_of_restored restored, current?_of_restored other]

/-- A move that both cursors make is answered alike and leaves them abreast. -/
theorem perform {operation : Operation} (abreast : Abreast row first second) (moves : operation.moves = true) :
    (first.perform row operation).1 = (second.perform row operation).1 ∧
      Abreast row (first.perform row operation).2 (second.perform row operation).2 := by
  cases operation with
  | next => exact ⟨congrArg Answer.point abreast.next.1, abreast.next.2⟩
  | seek timestamp => exact ⟨rfl, (abreast.alongside.seek timestamp).alongside, rfl⟩
  | restore token => exact ⟨congrArg Answer.restored (abreast.restore token).1, (abreast.restore token).2⟩
  | hasNext | peek | save => cases moves

theorem sync (abreast : Abreast row first second) : Abreast row (first.sync row) second := by
  obtain ⟨⟨place, other, left, right, same⟩, current⟩ := abreast
  refine ⟨⟨place.sync, other, left.sync, right, ?_⟩, ?_⟩
  · rw [Place.sync_sync, same]
  · rw [sync_current?, current]

/-- Whatever else only one of them is asked, they stay abreast. -/
theorem ask {operation : Operation} (abreast : Abreast row first second) (asks : operation.moves = false) :
    Abreast row (first.perform row operation).2 second := by
  cases operation with
  | hasNext => exact abreast.sync
  | peek =>
    rw [Cursor.perform, peek_cursor]
    exact abreast.sync
  | save => exact abreast
  | next | seek _ | restore _ => cases asks

theorem watch (abreast : Abreast row first second) (operations : List Operation) :
    first.watch row operations = second.watch row (operations.filter Operation.moves) := by
  induction operations generalizing first second with
  | nil => rfl
  | cons operation operations ih =>
    cases kind : operation.moves with
    | true =>
      obtain ⟨same, after⟩ := abreast.perform kind
      rw [List.filter_cons_of_pos kind]
      simp only [Cursor.watch, kind, if_true, same, after.current, ih after]
    | false =>
      rw [List.filter_cons_of_neg (by simp [kind])]
      simp only [Cursor.watch, kind, Bool.false_eq_true, if_false, ih (abreast.ask kind)]

end Abreast

/-- Wherever a cursor of a row stands, what it is asked between its moves changes no answer of a move and no current point
after one. What it tells about the next point, and about the end, holds when the next point is read. -/
theorem asking_is_transparent (frozen : row.Frozen) (reached : Reachable row cursor) :
    (∀ operations, cursor.watch row operations = cursor.watch row (operations.filter Operation.moves)) ∧
      Foresees row cursor := by
  obtain ⟨cells, packs⟩ := frozen.packs
  obtain ⟨place, stands, _⟩ := reached.stands packs
  exact ⟨(Abreast.refl stands).watch, stands.foresees⟩

/-- Behind the first pair, with both streams asked to their ends before the cursor goes back. -/
theorem asking_is_transparent_gappy :
    Gappy.row.Frozen ∧ Reachable Gappy.row ((start Gappy.row).next Gappy.row).2 ∧
      ((start Gappy.row).next Gappy.row).2.watch Gappy.row
          [.hasNext, .next, .peek, .hasNext, .next, .peek, .restore 8589934593, .peek, .hasNext, .next] =
        ((start Gappy.row).next Gappy.row).2.watch Gappy.row [.next, .next, .restore 8589934593, .next] ∧
      Foresees Gappy.row ((start Gappy.row).next Gappy.row).2 := by
  have reached : Reachable Gappy.row ((start Gappy.row).next Gappy.row).2 := .perform .next .start
  obtain ⟨same, foresees⟩ := asking_is_transparent Gappy.frozen reached
  exact ⟨Gappy.frozen, reached, same _, foresees⟩

end Cursor

end Rollup
