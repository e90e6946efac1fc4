import Rollup.Proofs.Traversal

/-! Cursors that have passed the same values answer alike for ever, wherever their counts stand and
whatever they were asked before. A saved word brings any cursor to where the saved one is. Only a saved
word can tell cursors apart that come to one place when their streams are lined up. -/

namespace Rollup

namespace Cursor

/-- Both cursors stand among the same cells and have passed the same values. -/
def Agree (row : Row) (first second : Cursor) : Prop :=
  ∃ place other, Stands row first place ∧ Stands row second other ∧
    place.values = other.values ∧ place.cells = other.cells

/-- Both cursors stand at one place. -/
def Together (row : Row) (first second : Cursor) : Prop :=
  ∃ place, Stands row first place ∧ Stands row second place

/-- Both cursors come to one place when the streams are lined up. -/
def Alongside (row : Row) (first second : Cursor) : Prop :=
  ∃ place other, Stands row first place ∧ Stands row second other ∧ place.sync = other.sync

variable {row : Row} {first second : Cursor}

theorem Together.agree (together : Together row first second) : Agree row first second := by
  obtain ⟨place, left, right⟩ := together
  exact ⟨place, place, left, right, rfl, rfl⟩

theorem Together.alongside (together : Together row first second) : Alongside row first second := by
  obtain ⟨place, left, right⟩ := together
  exact ⟨place, place, left, right, rfl⟩

theorem Agree.alongside (agree : Agree row first second) : Alongside row first second := by
  obtain ⟨place, other, left, right, values, cells⟩ := agree
  exact ⟨place, other, left, right, Place.sync_eq_of_values left.sound right.sound values cells⟩

namespace Alongside

theorem sync (alongside : Alongside row first second) : Together row (first.sync row) (second.sync row) := by
  obtain ⟨place, other, left, right, same⟩ := alongside
  exact ⟨place.sync, left.sync, same ▸ right.sync⟩

theorem next (alongside : Alongside row first second) :
    (first.next row).1 = (second.next row).1 ∧ Together row (first.next row).2 (second.next row).2 := by
  have synced := alongside.sync
  obtain ⟨place, other, left, right, same⟩ := alongside
  cases taken : place.sync.next? with
  | none =>
    rw [left.next_none taken, right.next_none (same ▸ taken)]
    exact ⟨rfl, synced⟩
  | some pair =>
    obtain ⟨pair, after⟩ := pair
    obtain ⟨moved, read, kept, _⟩ := left.next_some taken
    obtain ⟨moved', read', kept', _⟩ := right.next_some (same ▸ taken)
    rw [read, read']
    exact ⟨rfl, after, kept, kept'⟩

theorem hasNext (alongside : Alongside row first second) :
    (first.hasNext row).1 = (second.hasNext row).1 ∧ Together row (first.hasNext row).2 (second.hasNext row).2 := by
  have synced := alongside.sync
  obtain ⟨place, other, left, right, same⟩ := alongside
  rw [left.hasNext, right.hasNext, same]
  exact ⟨rfl, synced⟩

theorem peek (alongside : Alongside row first second) :
    (first.peek row).1 = (second.peek row).1 ∧ Together row (first.peek row).2 (second.peek row).2 := by
  have synced := alongside.sync
  obtain ⟨place, other, left, right, same⟩ := alongside
  rw [left.peek, right.peek, same]
  exact ⟨rfl, synced⟩

private theorem cells {place other : Place} (same : place.sync = other.sync) : place.cells = other.cells := by
  rw [← place.cells_sync, same, other.cells_sync]

theorem seek (alongside : Alongside row first second) (timestamp : UInt64) :
    Together row (first.seek row timestamp) (second.seek row timestamp) := by
  obtain ⟨place, other, left, right, same⟩ := alongside
  have moved := right.seek timestamp
  rw [← cells same] at moved
  exact ⟨_, left.seek timestamp, moved⟩

theorem restore {token : UInt64} (alongside : Alongside row first second)
    (restored : (first.restore row token).1 = .ok ()) :
    Together row (first.restore row token).2 (second.restore row token).2 := by
  obtain ⟨place, other, left, right, same⟩ := alongside
  obtain ⟨gap, passed, field, payload⟩ := left.restore_ok restored
  have moved := (right.restore_position (by rw [passed, cells same]) field payload).2
  rw [← cells same] at moved
  exact ⟨_, (left.restore_position passed field payload).2, moved⟩

end Alongside

namespace Agree

private theorem save (agree : Agree row first second) : first.save = second.save := by
  obtain ⟨place, other, left, right, values, _⟩ := agree
  rw [Cursor.save, Cursor.save, left.valuesAt, right.valuesAt, values]

private theorem restore (agree : Agree row first second) (token : UInt64) :
    (first.restore row token).1 = (second.restore row token).1 ∧
      Agree row (first.restore row token).2 (second.restore row token).2 :=
  restore_keeps agree fun restored _ => (agree.alongside.restore restored).agree

/-- One operation is answered alike and keeps the cursors in agreement. -/
theorem perform (agree : Agree row first second) (operation : Operation) :
    (first.perform row operation).1 = (second.perform row operation).1 ∧
      Agree row (first.perform row operation).2 (second.perform row operation).2 := by
  cases operation with
  | next => exact ⟨congrArg Answer.point agree.alongside.next.1, agree.alongside.next.2.agree⟩
  | hasNext => exact ⟨congrArg Answer.more agree.alongside.hasNext.1, agree.alongside.hasNext.2.agree⟩
  | peek => exact ⟨congrArg Answer.timestamp agree.alongside.peek.1, agree.alongside.peek.2.agree⟩
  | seek timestamp => exact ⟨rfl, (agree.alongside.seek timestamp).agree⟩
  | save => exact ⟨congrArg Answer.token agree.save, agree⟩
  | restore token => exact ⟨congrArg Answer.restored (agree.restore token).1, (agree.restore token).2⟩

theorem answers (agree : Agree row first second) (operations : List Operation) :
    first.answers row operations = second.answers row operations := by
  induction operations generalizing first second with
  | nil => rfl
  | cons operation operations ih =>
    obtain ⟨same, after⟩ := agree.perform operation
    rw [Cursor.answers, Cursor.answers, same, ih after]

end Agree

theorem Stands.restore_save {row : Row} {saved cursor : Cursor} {place other : Place}
    (left : Stands row saved place) (right : Stands row cursor other) (cells : other.cells = place.cells) :
    (cursor.restore row saved.save).1 = .ok () ∧ Agree row (cursor.restore row saved.save).2 saved := by
  obtain ⟨field, payload⟩ := left.save_halves
  have passed : place.values.cells = other.cells.1 := by rw [cells]; rfl
  obtain ⟨taken, moved⟩ := right.restore_position passed field payload
  refine ⟨taken, _, place, moved, left, rfl, ?_⟩
  rw [Place.cells_resume, cells]
  rfl

/-- Wherever two cursors of a row were led, the word that one saves is taken by the other, which from
then on answers every run of operations as the saved one does. -/
theorem restore_save_resumes {row : Row} (frozen : row.Frozen) {saved cursor : Cursor}
    (savedReached : Reachable row saved) (reached : Reachable row cursor) :
    (cursor.restore row saved.save).1 = .ok () ∧
      ∀ operations, (cursor.restore row saved.save).2.answers row operations = saved.answers row operations := by
  obtain ⟨cells, packs⟩ := frozen.packs
  obtain ⟨place, left, within⟩ := savedReached.stands packs
  obtain ⟨other, right, within'⟩ := reached.stands packs
  obtain ⟨taken, agree⟩ := left.restore_save right (within'.trans within.symm)
  exact ⟨taken, agree.answers⟩

/-- The word of a cursor past the first pair, taken by one that was sent to the end. -/
theorem restore_save_resumes_gappy :
    Gappy.row.Frozen ∧
      (((start Gappy.row).seek Gappy.row 3600).restore Gappy.row ((start Gappy.row).next Gappy.row).2.save).1 =
        .ok () ∧
      ∀ operations,
        (((start Gappy.row).seek Gappy.row 3600).restore Gappy.row
            ((start Gappy.row).next Gappy.row).2.save).2.answers Gappy.row operations =
          ((start Gappy.row).next Gappy.row).2.answers Gappy.row operations := by
  have saved : Reachable Gappy.row ((start Gappy.row).next Gappy.row).2 := .perform .next .start
  have other : Reachable Gappy.row ((start Gappy.row).seek Gappy.row 3600) := .perform (.seek 3600) .start
  exact ⟨Gappy.frozen, restore_save_resumes Gappy.frozen saved other⟩

end Cursor

end Rollup
