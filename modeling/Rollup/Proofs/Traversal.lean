import Rollup.Proofs.Building
import Rollup.Proofs.SavedState

/-! What a reader can do with a frozen row. A cursor may be read, asked, moved and put back in any
order, with any words; it always stands at a place among the cells that the row was built from. -/

namespace Rollup

/-- The cells that a row has once the given columns were accepted. -/
def Selection.cells (selection : Selection) (accepted : List Column) : List Cell × Option (List Cell) :=
  ((selection.ledger .value accepted).map Entry.cell,
    if selection.counted then some ((selection.ledger .count accepted).map Entry.cell) else none)

/-- A row that a new builder was frozen to, whatever columns it was fed before. -/
def Row.Frozen (row : Row) : Prop :=
  ∃ query settings start feeds, RowBuilder.create query settings = .ok start ∧
    (start.feedAll feeds).freeze = .ok row

namespace RowBuilder

theorem Holds.freeze {start builder : RowBuilder} {columns : List Column} {row : Row}
    (holds : Holds start columns builder) (frozen : builder.freeze = .ok row) :
    Cursor.Packs row (start.selection.cells columns) := by
  have values : builder.values = .holding (start.selection.ledger .value columns) := holds.stream .value
  have counts : builder.counts = .holding (start.selection.ledger .count columns) := holds.stream .count
  have selection := holds.selection
  unfold RowBuilder.freeze at frozen
  split at frozen
  · cases frozen
  · cases frozen
    refine ⟨?_, ?_, holds.increasing .value, ?_⟩
    · simp only [values]
      rfl
    · simp only [counts, selection, Selection.cells]
      split <;> rfl
    · intro cells member
      unfold Selection.cells at member
      split at member <;> cases member
      exact holds.increasing .count

end RowBuilder

theorem Row.Frozen.packs {row : Row} (frozen : row.Frozen) : ∃ cells, Cursor.Packs row cells := by
  obtain ⟨query, settings, start, feeds, created, kept⟩ := frozen
  exact ⟨_, (RowBuilder.feedAll_holds created feeds).freeze kept⟩

namespace Cursor

inductive Operation
  | next
  | hasNext
  | peek
  | seek (timestamp : UInt64)
  | save
  | restore (token : UInt64)

inductive Answer
  | point (read : Option Point)
  | more (more : Bool)
  | timestamp (peeked : Except ReadError UInt64)
  | moved
  | token (saved : UInt64)
  | restored (result : Except ReadError Unit)

def perform (row : Row) (cursor : Cursor) : Operation → Answer × Cursor
  | .next => (.point (cursor.next row).1, (cursor.next row).2)
  | .hasNext => (.more (cursor.hasNext row).1, (cursor.hasNext row).2)
  | .peek => (.timestamp (cursor.peek row).1, (cursor.peek row).2)
  | .seek timestamp => (.moved, cursor.seek row timestamp)
  | .save => (.token cursor.save, cursor)
  | .restore token => (.restored (cursor.restore row token).1, (cursor.restore row token).2)

def answers (row : Row) (cursor : Cursor) : List Operation → List Answer
  | [] => []
  | operation :: operations =>
    (cursor.perform row operation).1 :: answers row (cursor.perform row operation).2 operations

inductive Reachable (row : Row) : Cursor → Prop
  | start : Reachable row (.start row)
  | perform {cursor : Cursor} (operation : Operation) (reached : Reachable row cursor) :
    Reachable row (cursor.perform row operation).2

variable {row : Row} {cursor : Cursor} {place : Place}

theorem Packs.start {cells : List Cell × Option (List Cell)} (packs : Packs row cells) :
    Stands row (.start row) (Place.start cells.1 cells.2).sync :=
  (packs.stands rfl rfl).sync

/-- Every operation leads to a place among the same cells. -/
theorem Stands.perform (stands : Stands row cursor place) (operation : Operation) :
    ∃ after, Stands row (cursor.perform row operation).2 after ∧ after.cells = place.cells := by
  cases operation with
  | next =>
    cases taken : place.sync.next? with
    | none =>
      refine ⟨place.sync, ?_, place.cells_sync⟩
      simp only [Cursor.perform, stands.next_none taken]
      exact stands.sync
    | some pair =>
      obtain ⟨pair, after⟩ := pair
      obtain ⟨moved, read, kept, _⟩ := stands.next_some taken
      refine ⟨after, ?_, (Place.cells_next? taken).trans place.cells_sync⟩
      simp only [Cursor.perform, read]
      exact kept
  | hasNext => exact ⟨place.sync, stands.sync, place.cells_sync⟩
  | peek =>
    refine ⟨place.sync, ?_, place.cells_sync⟩
    simp only [Cursor.perform, stands.peek]
    exact stands.sync
  | seek timestamp =>
    refine ⟨_, stands.seek timestamp, ?_⟩
    simp
  | save => exact ⟨place, stands, rfl⟩
  | restore token =>
    cases restored : (cursor.restore row token).1 with
    | error cause =>
      refine ⟨place, ?_, rfl⟩
      simp only [Cursor.perform, restore_error restored]
      exact stands
    | ok _ =>
      obtain ⟨gap, cells, field, payload⟩ := stands.restore_ok restored
      refine ⟨_, (stands.restore_position cells field payload).2, ?_⟩
      rw [Place.cells_resume, cells]

theorem Reachable.stands {cells : List Cell × Option (List Cell)} (packs : Packs row cells)
    (reached : Reachable row cursor) : ∃ place, Stands row cursor place ∧ place.cells = cells := by
  induction reached with
  | start => exact ⟨_, packs.start, by simp⟩
  | perform operation _ ih =>
    obtain ⟨place, stands, same⟩ := ih
    obtain ⟨after, moved, kept⟩ := stands.perform operation
    exact ⟨after, moved, kept.trans same⟩

end Cursor

/-! A small row to run statements on. Sums stand at the offsets 1, 3 and 5 and counts at 2, 3 and 5, and
three of the columns are refused on the way. -/

namespace Gappy

def query : Query := ⟨.avg, ⟨⟨60, 0⟩, ⟨3600, 0⟩⟩⟩

def rowKey : Bytes := [0, 0, 1, 0, 0, 0, 0]

def start : RowBuilder :=
  ⟨⟨.sum, 0, some 1⟩, {}, query.granularity, .milliseconds, false, none, .empty, .empty⟩

def feeds : List Feed :=
  [.add ⟨rowKey, [0, 0, 16], [7], 1⟩, .first ⟨rowKey, [0, 0, 16], [7], 1⟩, .push ⟨rowKey, [1, 0, 32], [4], 1⟩,
    .push ⟨rowKey, [0, 0, 49], [1, 0], 1⟩, .push ⟨rowKey, [0, 0, 48], [2], 2⟩, .add ⟨rowKey, [1, 0, 48], [5], 1⟩,
    .push ⟨[1], [0, 0, 64], [3], 1⟩, .add ⟨rowKey, [0, 0, 80], [9], 1⟩, .push ⟨rowKey, [1, 0, 80], [6], 1⟩]

def row : Row :=
  { key := ⟨rowKey, {}, by decide⟩
    granularity := query.granularity
    resolution := .milliseconds
    values := ⟨[0, 16, 0, 49, 0, 80], [7, 1, 0, 9]⟩
    counts? := some ⟨[0, 32, 0, 48, 0, 80], [4, 5, 6]⟩ }

theorem created : RowBuilder.create query .default = .ok start := rfl

theorem frozen : row.Frozen := ⟨query, .default, start, feeds, created, rfl⟩

end Gappy

end Rollup
