import Rollup.Proofs.Skipping

/-! A cursor that goes back only to words it saved itself counts every cell it steps over: each time it comes to a cell
without a partner, it has been over all such cells of that stream that lie before. A word that another cursor saved can
lead it past cells it never saw. -/

namespace Rollup

def StreamKind.other : StreamKind → StreamKind
  | .value => .count
  | .count => .value

namespace Row

def fields (row : Row) : StreamKind → List Field
  | .value => row.values.fieldList
  | .count => (row.counts?.map CellStream.fieldList).getD []

/-- The cell of the stream whose field starts there has no partner in the other stream. -/
def Lone (row : Row) (kind : StreamKind) (start : Nat) : Prop :=
  ∃ front field back, row.fields kind = front ++ field :: back ∧ start = Field.size * front.length ∧
    ∀ partner ∈ row.fields kind.other, partner.offset ≠ field.offset

/-- The cell of the stream whose field starts there has no partner in the other stream and lies before a cell of it. -/
def Stray (row : Row) (kind : StreamKind) (start : Nat) : Prop :=
  ∃ front field back, row.fields kind = front ++ field :: back ∧ start = Field.size * front.length ∧
    (∀ partner ∈ row.fields kind.other, partner.offset ≠ field.offset) ∧
    ∃ later ∈ row.fields kind.other, field.offset < later.offset

theorem Stray.lone {row : Row} {kind : StreamKind} {start : Nat} (stray : row.Stray kind start) :
    row.Lone kind start := by
  obtain ⟨front, field, back, fields, isStart, lone, _⟩ := stray
  exact ⟨front, field, back, fields, isStart, lone⟩

theorem Lone.aligned {row : Row} {kind : StreamKind} {start : Nat} (lone : row.Lone kind start) :
    start % Field.size = 0 := by
  obtain ⟨front, _, _, _, rfl, _⟩ := lone
  exact Nat.mul_mod_right _ _

theorem not_lone_of_partner {row : Row} {kind : StreamKind} {front back : List Field} {field partner : Field}
    (fields : row.fields kind = front ++ field :: back) (present : partner ∈ row.fields kind.other)
    (same : partner.offset = field.offset) : ¬ row.Lone kind (Field.size * front.length) := by
  rintro ⟨front', field', back', fields', start, lone⟩
  have length : front.length = front'.length := Nat.eq_of_mul_eq_mul_left (by decide) start
  have tails := (List.append_inj (fields.symm.trans fields') length).2
  cases tails
  exact lone partner present same

end Row

namespace Cursor

variable {row : Row} {cursor : Cursor} {place : Place} {kind : StreamKind} {gap : Gap} {start : Nat}

theorem Stands.position (stands : Stands row cursor place) (kind : StreamKind) (held : place.gap? kind = some gap) :
    cursor.position kind = gap.position := by
  cases kind with
  | value =>
    cases held
    exact stands.valuesAt
  | count => exact stands.countsAt gap held

theorem Stands.fields (stands : Stands row cursor place) (kind : StreamKind) (held : place.gap? kind = some gap) :
    row.fields kind = gap.cells.map Cell.field := by
  cases kind with
  | value =>
    cases held
    rw [Row.fields, stands.values, CellStream.fieldList_pack, Place.cells]
  | count =>
    have held : place.counts? = some gap := held
    simp only [Row.fields, stands.counts, Place.cells, held, Option.map_some, Option.getD_some,
      CellStream.fieldList_pack]

theorem Stands.exists_counts (stands : Stands row cursor place) (counted : row.counted = true) :
    ∃ counts, place.counts? = some counts := by
  rw [Row.counted, stands.counts, Place.cells, Option.map_map, Option.isSome_map] at counted
  exact Option.isSome_iff_exists.mp counted

theorem Stands.exists_gap (stands : Stands row cursor place) (counted : row.counted = true) (kind : StreamKind) :
    ∃ gap, place.gap? kind = some gap := by
  cases kind with
  | value => exact ⟨place.values, rfl⟩
  | count => exact stands.exists_counts counted

theorem Stands.aligned (stands : Stands row cursor place) (counted : row.counted = true) (kind : StreamKind) :
    (cursor.position kind).field % Field.size = 0 := by
  obtain ⟨gap, held⟩ := stands.exists_gap counted kind
  rw [stands.position kind held]
  exact gap.aligned_position

private theorem stray_of_between {last : Gap} {more others : List Cell}
    (fields : row.fields kind = gap.cells.map Cell.field)
    (otherFields : row.fields kind.other = others.map Cell.field) (cells : last.cells = gap.cells)
    (passed : last.passed = gap.passed ++ more)
    (stray : ∀ cell ∈ more, Merge.Stray others cell) (member : start ∈ between gap.position last.position) :
    row.Stray kind start := by
  obtain ⟨even, above, below⟩ := (mem_between_iff gap.aligned_position last.aligned_position).mp member
  rw [gap.position_field] at above
  rw [last.position_field, passed, List.length_append] at below
  unfold Field.size at even above below
  -- the cell is the one with this index among those passed since
  obtain ⟨index, rfl⟩ : ∃ index, start = Field.size * (gap.passed.length + index) :=
    ⟨start / 2 - gap.passed.length, by unfold Field.size; omega⟩
  have inside : index < more.length := by
    unfold Field.size at below
    omega
  obtain ⟨lone, later, isLater, below⟩ := stray _ (List.getElem_mem inside)
  refine ⟨(gap.passed ++ more.take index).map Cell.field, more[index].field,
    (more.drop (index + 1) ++ last.pending).map Cell.field, ?_, ?_, ?_, later.field, ?_, below⟩
  · rw [fields, ← cells, Gap.cells, passed, ← List.map_cons, ← List.map_append, List.append_assoc, List.append_assoc,
      ← List.cons_append, ← List.drop_eq_getElem_cons inside, ← List.append_assoc (more.take index),
      List.take_append_drop]
  · rw [List.length_map, List.length_append, List.length_take, Nat.min_eq_left (Nat.le_of_lt inside)]
  · intro partner present
    rw [otherFields] at present
    obtain ⟨cell, isCell, rfl⟩ := List.mem_map.mp present
    exact lone cell isCell
  · rw [otherFields]
    exact List.mem_map_of_mem isLater

/-- Each cell that is stepped over to line the streams up is a stray. -/
theorem Stands.stray_of_stepped (stands : Stands row cursor place) (member : start ∈ cursor.stepped row kind) :
    row.Stray kind start := by
  have synced := stands.sync
  cases held : place.counts? with
  | none =>
    have rowCounts := stands.counts
    simp only [Place.cells, held, Option.map_none] at rowCounts
    simp only [stepped, Cursor.sync, rowCounts, between_self, List.not_mem_nil] at member
  | some counts =>
    obtain ⟨valuesCells, countsCells⟩ := Merge.settle_cells place.values counts
    obtain ⟨valuesMore, countsMore, valuesPast, countsPast, valuesStray, countsStray⟩ :=
      (stands.sound.beside counts held).settle_stray stands.sound.values (stands.sound.counts counts held)
    have valuesFields : row.fields .value = place.values.cells.map Cell.field := stands.fields .value rfl
    have countsFields : row.fields .count = counts.cells.map Cell.field := stands.fields .count held
    rw [Place.sync_counted held] at synced
    cases kind with
    | value =>
      rw [stepped, stands.position .value rfl, synced.position .value rfl] at member
      exact stray_of_between valuesFields countsFields valuesCells valuesPast valuesStray member
    | count =>
      rw [stepped, stands.position .count held, synced.position .count rfl] at member
      exact stray_of_between countsFields valuesFields countsCells countsPast countsStray member

private theorem lone_before_pair {passed pending : List Cell} {cell partner : Cell}
    (fields : row.fields kind = (passed ++ cell :: pending).map Cell.field)
    (present : partner.field ∈ row.fields kind.other) (same : partner.offset = cell.offset) (lone : row.Lone kind start)
    (below : start < Field.size * (passed.length + 1)) : start < Field.size * passed.length := by
  rw [List.map_append, List.map_cons] at fields
  have paired := Row.not_lone_of_partner fields present same
  rw [List.length_map] at paired
  obtain ⟨front, _, _, _, rfl, _⟩ := id lone
  have different : front.length ≠ passed.length := fun equal => paired (equal ▸ lone)
  unfold Field.size at *
  omega

/-- Reading takes a pair, so it leaves no cell behind that has no partner but those stepped over first. -/
theorem Stands.lone_of_next (stands : Stands row cursor place) (counted : row.counted = true)
    (lone : row.Lone kind start) (below : start < ((cursor.next row).2.position kind).field) :
    start < ((cursor.sync row).position kind).field := by
  have synced := stands.sync
  cases taken : place.sync.next? with
  | none =>
    rw [stands.next_none taken] at below
    exact below
  | some next =>
    obtain ⟨pair, after⟩ := next
    obtain ⟨moved, read, kept, _⟩ := stands.next_some taken
    rw [read] at below
    obtain ⟨counts, held⟩ := synced.exists_counts counted
    obtain ⟨valuesPassed, value, values, countsPassed, count, counts, here, rfl⟩ := Place.next?_counted held taken
    have same : value.offset = count.offset := Place.sync_paired (by rw [here]) (by rw [here]) rfl
    rw [here] at synced
    have valuesFields := synced.fields .value rfl
    have countsFields := synced.fields .count rfl
    cases kind with
    | value =>
      rw [kept.position .value rfl, Gap.position_field, List.length_append] at below
      rw [synced.position .value rfl, Gap.position_field]
      refine @lone_before_pair _ _ _ _ _ _ count valuesFields ?_ same.symm lone below
      simp [StreamKind.other, countsFields, Gap.cells]
    | count =>
      rw [kept.position .count rfl, Gap.position_field, List.length_append] at below
      rw [synced.position .count rfl, Gap.position_field]
      refine @lone_before_pair _ _ _ _ _ _ value countsFields ?_ same lone below
      simp [StreamKind.other, valuesFields, Gap.cells]

/-- Every cell without a partner is stepped over that lies before the cursor, or before another that was stepped over,
and none was stepped over for the first time after a later one. -/
structure Covered (row : Row) (history : History) (cursor : Cursor) : Prop where
  before : ∀ kind start, row.Lone kind start → start < (cursor.position kind).field → start ∈ history kind
  behind : ∀ kind start, row.Lone kind start → ∀ later ∈ history kind, start < later → start ∈ history kind
  ordered : ∀ kind, ∀ start ∈ history kind, History.InOrder (history kind) start

namespace Covered

variable {history : History}

theorem moved {other : Cursor} (covered : Covered row history cursor)
    (before : ∀ kind start, row.Lone kind start → start < (other.position kind).field → start ∈ history kind) :
    Covered row history other := ⟨before, covered.behind, covered.ordered⟩

theorem fresh (row : Row) : Covered row .nil {} := by
  refine ⟨?_, ?_, ?_⟩
  · intro kind start _ below
    cases kind <;> cases below
  · intro kind start _ later member
    cases member
  · intro kind start member
    cases member

theorem sync (covered : Covered row history cursor) (stands : Stands row cursor place) (counted : row.counted = true) :
    Covered row (history.join (cursor.stepped row)) (cursor.sync row) := by
  have stepped_iff (kind : StreamKind) (start : Nat) := @mem_between_iff (cursor.position kind)
    ((cursor.sync row).position kind) start (stands.aligned counted kind) (stands.sync.aligned counted kind)
  have before : ∀ kind start, row.Lone kind start → start < ((cursor.sync row).position kind).field →
      start ∈ history.join (cursor.stepped row) kind := by
    intro kind start lone below
    by_cases passed : start < (cursor.position kind).field
    · exact List.mem_append_left _ (covered.before kind start lone passed)
    · refine List.mem_append_right _ ((stepped_iff kind start).mpr ⟨lone.aligned, Nat.le_of_not_lt passed, below⟩)
  refine ⟨before, ?_, ?_⟩
  · intro kind start lone later member below
    rcases List.mem_append.mp member with earlier | stepped
    · exact List.mem_append_left _ (covered.behind kind start lone later earlier below)
    · have inside := ((stepped_iff kind later).mp stepped).2.2
      exact before kind start lone (Nat.lt_trans below inside)
  · intro kind start member
    by_cases earlier : start ∈ history kind
    · exact (History.inOrder_append_iff earlier _).mpr (covered.ordered kind start earlier)
    · have stepped := (List.mem_append.mp member).resolve_left earlier
      refine History.inOrder_append_of_increasing (between_increasing _ _) stepped ?_
      intro other present
      by_contra notBelow
      have lone := (stands.stray_of_stepped stepped).lone
      rcases Nat.lt_or_eq_of_le (Nat.le_of_not_lt notBelow) with less | rfl
      · exact earlier (covered.behind kind start lone other present less)
      · exact earlier present

theorem next (covered : Covered row history cursor) (stands : Stands row cursor place) (counted : row.counted = true) :
    Covered row (history.join (cursor.stepped row)) (cursor.next row).2 := by
  have synced := covered.sync stands counted
  refine synced.moved ?_
  intro kind start lone below
  exact synced.before kind start lone (stands.lone_of_next counted lone below)

theorem skipBefore (covered : Covered row history cursor) (stands : Stands row cursor place)
    (counted : row.counted = true) (target : UInt64) :
    Covered row (history.join (cursor.steppedBefore row target)) (cursor.skipBefore row target) := by
  have kept := @skipBefore_induction row target
    (fun history cursor => Covered row history cursor ∧ ∃ place, Stands row cursor place) ?_ ?_ history cursor
    ⟨covered, place, stands⟩
  · exact kept.1
  · rintro history cursor ⟨covered, place, stands⟩
    exact ⟨covered.sync stands counted, _, stands.sync⟩
  · rintro history cursor ⟨covered, place, stands⟩
    obtain ⟨after, moved, _⟩ := stands.perform .next
    exact ⟨covered.next stands counted, after, moved⟩

theorem seek (covered : Covered row history cursor) (stands : Stands row cursor place) (counted : row.counted = true)
    (timestamp : UInt64) :
    Covered row (history.join (cursor.steppedBy row (.seek timestamp))) (cursor.seek row timestamp) := by
  have rewound : Covered row history cursor.rewound := by
    refine covered.moved ?_
    intro kind start _ below
    cases kind <;> cases below
  have reached :=
    rewound.skipBefore (stands.packs.stands rfl rfl) counted (Timestamp.normalize timestamp row.resolution)
  refine reached.moved ?_
  intro kind start lone below
  cases kind with
  | value => exact reached.before .value start lone below
  | count => exact reached.before .count start lone below

/-- A saved word leads no further than the cursor was that saved it. -/
theorem restore {saved : Cursor} {other : Place} {token : UInt64} (covered : Covered row history cursor)
    (stands : Stands row cursor place) (counted : row.counted = true) (savedStands : Stands row saved other)
    (cells : other.cells = place.cells) (isSaved : token = saved.save)
    (savedBefore : ∀ kind start, row.Lone kind start → start < (saved.position kind).field → start ∈ history kind) :
    Covered row history (cursor.restore row token).2 := by
  subst isSaved
  refine covered.moved ?_
  intro kind start lone below
  refine savedBefore kind start lone (Nat.lt_of_lt_of_le below ?_)
  obtain ⟨field, payload⟩ := savedStands.save_halves
  obtain ⟨_, moved⟩ := stands.restore_position (congrArg Prod.fst cells) field payload
  obtain ⟨counts, held⟩ := savedStands.exists_counts counted
  cases kind with
  | value =>
    rw [moved.position .value rfl, savedStands.position .value rfl]
    exact Nat.le_refl _
  | count =>
    have resumed : (Place.resume other.values place.cells.2).counts? =
        some (Merge.realigned other.values counts.cells) := by
      rw [← cells, Place.cells, held]
      rfl
    rw [moved.position .count resumed, savedStands.position .count held, Gap.position_field, Gap.position_field]
    refine Nat.mul_le_mul_left _ ?_
    exact (savedStands.sound.beside counts held).realigned_le (savedStands.sound.counts counts held)

theorem perform (covered : Covered row history cursor) (stands : Stands row cursor place) (counted : row.counted = true)
    {operation : Operation} (moves : ∀ token, operation ≠ .restore token) :
    Covered row (history.join (cursor.steppedBy row operation)) (cursor.perform row operation).2 := by
  cases operation with
  | next => exact covered.next stands counted
  | hasNext => exact covered.sync stands counted
  | peek =>
    simp only [Cursor.perform, peek_cursor]
    exact covered.sync stands counted
  | seek timestamp => exact covered.seek stands counted timestamp
  | save => exact (History.join_nil history).symm ▸ covered
  | restore token => exact absurd rfl (moves token)

end Covered

theorem Stands.stray_of_steppedBy (stands : Stands row cursor place) (operation : Operation)
    (member : start ∈ cursor.steppedBy row operation kind) : row.Stray kind start := by
  cases operation with
  | next | hasNext | peek => exact stands.stray_of_stepped member
  | seek timestamp =>
    have rewound : Stands row cursor.rewound _ := stands.packs.stands rfl rfl
    have kept := @skipBefore_induction row (Timestamp.normalize timestamp row.resolution)
      (fun history cursor => (∀ kind, ∀ start ∈ history kind, row.Stray kind start) ∧ ∃ place, Stands row cursor place)
      ?_ ?_ .nil cursor.rewound ⟨fun _ _ member => (List.not_mem_nil member).elim, _, rewound⟩
    · exact kept.1 kind start member
    · rintro history cursor ⟨stray, place, stands⟩
      refine ⟨?_, _, stands.sync⟩
      intro kind start member
      exact (List.mem_append.mp member).elim (stray kind start) stands.stray_of_stepped
    · rintro history cursor ⟨stray, place, stands⟩
      obtain ⟨after, moved, _⟩ := stands.perform .next
      refine ⟨?_, after, moved⟩
      intro kind start member
      exact (List.mem_append.mp member).elim (stray kind start) stands.stray_of_stepped
  | save | restore _ => cases member

section Run
variable {cells : List Cell × Option (List Cell)} {operations : List Operation}

theorem run_reachable (row : Row) (operations : List Operation) : Reachable row (run row operations).1 := by
  induction operations using List.reverseRecOn with
  | nil => exact .start
  | append_singleton operations operation ih =>
    rw [run_concat]
    exact .perform operation ih

theorem run_stray (packs : Packs row cells) (operations : List Operation)
    (member : start ∈ (run row operations).2 kind) : row.Stray kind start := by
  induction operations using List.reverseRecOn with
  | nil => exact (packs.stands rfl rfl : Stands row {} _).stray_of_stepped member
  | append_singleton operations operation ih =>
    obtain ⟨place, stands, _⟩ := (run_reachable row operations).stands packs
    rw [run_concat] at member
    exact (List.mem_append.mp member).elim ih (stands.stray_of_steppedBy operation)

theorem run_lone (packs : Packs row cells) (operations : List Operation)
    (member : start ∈ (run row operations).2 kind) : row.Lone kind start :=
  (run_stray packs operations member).lone

theorem run_mono {front : List Operation} (initial : front <+: operations)
    (member : start ∈ (run row front).2 kind) : start ∈ (run row operations).2 kind := by
  obtain ⟨rest, rfl⟩ := initial
  induction rest using List.reverseRecOn with
  | nil => rwa [List.append_nil]
  | append_singleton rest operation ih =>
    rw [← List.append_assoc, run_concat]
    exact List.mem_append_left _ ih

/-- The run goes back only to words that it saved itself before. -/
inductive OwnTokens (row : Row) : List Operation → Prop
  | nil : OwnTokens row []
  | moves {operations : List Operation} {operation : Operation} (own : OwnTokens row operations)
      (moves : ∀ token, operation ≠ .restore token) : OwnTokens row (operations ++ [operation])
  | restores {earlier later : List Operation} {token : UInt64} (own : OwnTokens row (earlier ++ .save :: later))
      (isSaved : token = (run row earlier).1.save) : OwnTokens row (earlier ++ .save :: later ++ [.restore token])

theorem OwnTokens.append {more : List Operation} (own : OwnTokens row operations)
    (moves : ∀ operation ∈ more, ∀ token, operation ≠ .restore token) : OwnTokens row (operations ++ more) := by
  induction more using List.reverseRecOn with
  | nil => rwa [List.append_nil]
  | append_singleton more operation ih =>
    rw [← List.append_assoc]
    refine .moves (ih ?_) (moves operation (by simp))
    intro other member
    exact moves other (List.mem_append_left _ member)

/-- The state is kept for every initial part of the run, so that it is at hand for the moment a word was saved. -/
theorem OwnTokens.covered (own : OwnTokens row operations) (packs : Packs row cells) (counted : row.counted = true) :
    ∀ front, front <+: operations → Covered row (run row front).2 (run row front).1 := by
  induction own with
  | nil =>
    intro front initial
    rw [List.prefix_nil.mp initial]
    exact (Covered.fresh row).sync (packs.stands rfl rfl) counted
  | @moves operations operation _ moves ih =>
    intro front initial
    rcases List.prefix_concat_iff.mp initial with rfl | earlier
    · obtain ⟨place, stands, _⟩ := (run_reachable row operations).stands packs
      rw [run_concat]
      exact (ih operations (List.prefix_refl _)).perform stands counted moves
    · exact ih front earlier
  | @restores earlier later token _ isSaved ih =>
    intro front initial
    rcases List.prefix_concat_iff.mp initial with rfl | before
    · have initial : earlier <+: earlier ++ .save :: later := List.prefix_append _ _
      obtain ⟨place, stands, cells⟩ := (run_reachable row (earlier ++ .save :: later)).stands packs
      obtain ⟨other, saved, savedCells⟩ := (run_reachable row earlier).stands packs
      have covered := ih _ (List.prefix_refl _)
      rw [run_concat, steppedBy, History.join_nil]
      refine covered.restore stands counted saved (savedCells.trans cells.symm) isSaved ?_
      intro kind start lone below
      exact run_mono initial ((ih earlier initial).before kind start lone below)
    · exact ih front before

end Run

/-- The count of cells stepped over leaves out those first stepped over after a later cell of the same stream, and only
those. So it is exact for a cursor that goes back only to words of its own. -/
theorem skipped_counts_first_passes {row : Row} (frozen : row.Frozen) (counted : row.counted = true)
    (operations : List Operation) :
    (∀ kind, ∀ start ∈ (run row operations).2 kind, row.Lone kind start) ∧
      (run row operations).1.skipped = (run row operations).2.inOrder ∧
      (run row operations).1.skipped ≤ (run row operations).2.distinct ∧
      ((run row operations).1.skipped = (run row operations).2.distinct ↔
        ∀ kind, ∀ start ∈ (run row operations).2 kind, History.InOrder ((run row operations).2 kind) start) ∧
      (OwnTokens row operations → (run row operations).1.skipped = (run row operations).2.distinct) := by
  obtain ⟨cells, packs⟩ := frozen.packs
  have counts := (run_tallied row operations).skipped
  have exact_iff := History.inOrder_eq_distinct_iff (run row operations).2
  rw [← counts] at exact_iff
  refine ⟨fun kind start member => run_lone packs operations member, counts, ?_, exact_iff, ?_⟩
  · rw [counts]
    exact History.inOrder_le_distinct _
  · intro own
    exact exact_iff.mpr (own.covered packs counted operations (List.prefix_refl _)).ordered

end Cursor

/-! A row with values at the offsets 0 to 4 and counts at 0, 2 and 4, so that each pair has a lone value before the
next. -/

namespace Sparse
open Cursor

def feeds : List Feed :=
  [.push ⟨Gappy.rowKey, [0, 0, 0], [10], 1⟩, .push ⟨Gappy.rowKey, [1, 0, 0], [1], 1⟩,
    .push ⟨Gappy.rowKey, [0, 0, 16], [11], 1⟩, .push ⟨Gappy.rowKey, [0, 0, 32], [12], 1⟩,
    .push ⟨Gappy.rowKey, [1, 0, 32], [2], 1⟩, .push ⟨Gappy.rowKey, [0, 0, 48], [13], 1⟩,
    .push ⟨Gappy.rowKey, [0, 0, 64], [14], 1⟩, .push ⟨Gappy.rowKey, [1, 0, 64], [3], 1⟩]

def row : Row :=
  { Gappy.row with
    values := ⟨[0, 0, 0, 16, 0, 32, 0, 48, 0, 64], [10, 11, 12, 13, 14]⟩
    counts? := some ⟨[0, 0, 0, 32, 0, 64], [1, 2, 3]⟩ }

theorem frozen : row.Frozen := ⟨Gappy.query, .default, Gappy.start, feeds, Gappy.created, rfl⟩

/-- Reads a point, saves, reads on, goes back to the saved word and reads the row to its end. -/
def rescan : List Operation :=
  [.next, .save, .next, .next, .restore (run row [.next]).1.save, .next, .next, .seek 0, .next, .hasNext]

theorem rescan_own : OwnTokens row rescan := by
  have saved : OwnTokens row [.next, .save, .next, .next] := OwnTokens.nil.append (by simp)
  have back := @OwnTokens.restores row [.next] [.next, .next] _ saved rfl
  exact @OwnTokens.append row _ [.next, .next, .seek 0, .next, .hasNext] back (by simp)

/-- Starts at the word of a cursor that has read two points, and goes back to the first point from there. -/
def jump : List Operation := [.restore (run row [.next, .next]).1.save, .hasNext, .seek 0, .next, .hasNext]

end Sparse

namespace Cursor

theorem skipped_counts_first_passes_sparse :
    Sparse.row.Frozen ∧ Sparse.row.counted = true ∧ OwnTokens Sparse.row Sparse.rescan ∧
      (run Sparse.row Sparse.rescan).1.skipped = (run Sparse.row Sparse.rescan).2.distinct ∧
      (run Sparse.row Sparse.rescan).2.distinct = 2 := by
  obtain ⟨_, _, _, _, exact_own⟩ := skipped_counts_first_passes Sparse.frozen rfl Sparse.rescan
  exact ⟨Sparse.frozen, rfl, Sparse.rescan_own, exact_own Sparse.rescan_own, by decide +kernel⟩

/-- The jump is taken and passes over the second lone value before the first, which is then never counted. -/
theorem skipped_misses_first_of_jump :
    Sparse.row.Frozen ∧ Sparse.row.counted = true ∧
      ((start Sparse.row).restore Sparse.row (run Sparse.row [.next, .next]).1.save).1 = .ok () ∧
      (run Sparse.row Sparse.jump).2 .value = [6, 2] ∧ (run Sparse.row Sparse.jump).2.distinct = 2 ∧
      (run Sparse.row Sparse.jump).1.skipped = 1 :=
  ⟨Sparse.frozen, rfl, by decide +kernel, by decide +kernel, by decide +kernel, by decide +kernel⟩

end Cursor

end Rollup
