import Rollup.Proofs.Lockstep
import Rollup.Proofs.LookingAhead
import Rollup.Proofs.Rollback

/-! Lining two streams up, turn by turn. A turn passes the smaller of two offsets, and since offsets go up no cell still
to come in the other stream has it. So only cells without a partner are passed, and the turns end with the cells. Widths
and offsets alone matter: the payloads need not be such that they can be decoded. -/

namespace Rollup

namespace CellStream

/-- The payload bytes are as many as the fields announce, and the offsets of the fields go up. -/
structure Orderly (stream : CellStream) : Prop extends stream.Filled where
  ascending : stream.fieldList.Pairwise fun first second => first.offset < second.offset

variable {stream : CellStream} {start : Nat}

theorem fieldAt?_eq_head? (stream : CellStream) (start : Nat) :
    stream.fieldAt? start = (stream.fieldsFrom start).head? :=
  Field.at?_eq_head? stream.fields start

theorem fieldsBefore_append_fieldsFrom (even : start % Field.size = 0) :
    stream.fieldsBefore start ++ stream.fieldsFrom start = stream.fieldList := by
  obtain ⟨index, rfl⟩ := Nat.dvd_of_mod_eq_zero even
  rw [fieldsBefore, fieldsFrom, Field.list_take, Field.list_drop, fieldList, List.take_append_drop]

theorem fieldsFrom_next (even : start % Field.size = 0) :
    stream.fieldsFrom (start + Field.size) = (stream.fieldsFrom start).tail := by
  obtain ⟨index, rfl⟩ := Nat.dvd_of_mod_eq_zero even
  rw [← Nat.mul_succ, fieldsFrom, fieldsFrom, Field.list_drop, Field.list_drop, List.tail_drop]

/-- An offset below that of the next cell is the offset of no cell to come. -/
theorem Orderly.ne_of_lt_next (orderly : stream.Orderly) (even : start % Field.size = 0) {next : Field} {offset : Nat}
    (found : stream.fieldAt? start = some next) (below : offset < next.offset) :
    ∀ field ∈ stream.fieldsFrom start, offset ≠ field.offset := by
  have ascending := orderly.ascending
  rw [← fieldsBefore_append_fieldsFrom even] at ascending
  rw [fieldAt?_eq_head?] at found
  obtain ⟨rest, shape⟩ := List.head?_eq_some_iff.mp found
  rw [shape] at ascending ⊢
  have later := (List.pairwise_cons.mp (List.pairwise_append.mp ascending).2.1).1
  intro field member
  rcases List.mem_cons.mp member with rfl | member
  · exact Nat.ne_of_lt below
  · exact Nat.ne_of_lt (Nat.lt_trans below (later field member))

end CellStream

namespace Position

variable {stream : CellStream} {position last : Position} {field : Field}

/-- From one position to another between cells, past the given fields. -/
structure Passes (stream : CellStream) (first last : Position) (passed : List Field) : Prop where
  within : last.Within stream
  ahead : stream.fieldsFrom first.field = passed ++ stream.fieldsFrom last.field
  field : last.field = first.field + Field.size * passed.length
  payload : last.payload = first.payload + (passed.map Field.width).sum

theorem Passes.mem_ahead {first : Position} {passed : List Field} (passes : Passes stream first last passed)
    (member : field ∈ passed) : field ∈ stream.fieldsFrom first.field := by
  rw [passes.ahead]
  exact List.mem_append_left _ member

theorem Passes.refl (within : position.Within stream) : Passes stream position position [] :=
  ⟨within, rfl, rfl, rfl⟩

/-- Past one cell a position is between cells again. -/
theorem Within.past (within : position.Within stream) (filled : stream.Filled)
    (found : stream.fieldAt? position.field = some field) :
    (position.past field).Within stream ∧
      stream.fieldsFrom position.field = field :: stream.fieldsFrom (position.past field).field := by
  have even : (position.past field).field % Field.size = 0 := by
    simpa only [Position.past, Nat.add_mod_right] using within.even
  have head := found
  rw [CellStream.fieldAt?_eq_head?] at head
  obtain ⟨rest, shape⟩ := List.head?_eq_some_iff.mp head
  have next : stream.fieldsFrom (position.past field).field = rest := by
    rw [Position.past, CellStream.fieldsFrom_next within.even, shape, List.tail_cons]
  have whole := @CellStream.fieldsBefore_append_fieldsFrom stream _ even
  have before : stream.fieldsBefore (position.past field).field = stream.fieldsBefore position.field ++ [field] := by
    apply (List.append_left_inj rest).mp
    rw [← next, whole, next, ← List.append_cons, ← shape, CellStream.fieldsBefore_append_fieldsFrom within.even]
  have payload : (position.past field).payload =
      ((stream.fieldsBefore (position.past field).field).map Field.width).sum := by
    rw [before, List.map_append, List.sum_append, ← within.payload, List.map_singleton, List.sum_singleton, Position.past]
  refine ⟨⟨even, CellStream.bound_of_fieldAt? found, payload, ?_⟩, ?_⟩
  · rw [payload, filled.payloads, ← whole, List.map_append, List.sum_append]
    exact Nat.le_add_right _ _
  · rw [shape, next]

theorem Passes.cons {passed : List Field}
    (ahead : stream.fieldsFrom position.field = field :: stream.fieldsFrom (position.past field).field)
    (rest : Passes stream (position.past field) last passed) : Passes stream position last (field :: passed) := by
  refine ⟨rest.within, ?_, ?_, ?_⟩
  · rw [ahead, rest.ahead, List.cons_append]
  · have moved := rest.field
    simp only [Position.past, List.length_cons, Nat.mul_succ] at moved ⊢
    omega
  · rw [rest.payload, Position.past, List.map_cons, List.sum_cons, Nat.add_assoc]

/-- Where no field follows, no byte does. -/
theorem Within.at_end (within : position.Within stream) (filled : stream.Filled)
    (ended : stream.fieldAt? position.field = none) : position.field = stream.fields.length := by
  have even : (stream.fields.drop position.field).length % Field.size = 0 := by
    have whole := filled.fields
    have front := within.even
    rw [List.length_drop]
    unfold Field.size at *
    omega
  rw [CellStream.fieldAt?_eq_head?, List.head?_eq_none_iff] at ended
  have rest := Field.flatMap_bytes_list even
  change (stream.fieldsFrom position.field).flatMap Field.bytes = _ at rest
  rw [ended, List.flatMap_nil] at rest
  exact Nat.le_antisymm within.fieldInside (List.drop_eq_nil_iff.mp rest.symm)

end Position

namespace Cursor

variable {values counts : CellStream} {cursor after last : Cursor} {turns : Nat}

/-- One turn: the smaller of two unequal offsets is passed. There is none if they are equal or a stream has ended. -/
def turn? (values counts : CellStream) (cursor : Cursor) : Option Cursor :=
  match values.fieldAt? cursor.values.field, counts.fieldAt? cursor.counts.field with
  | some value, some count =>
    if value.offset = count.offset then none
    else if count.offset < value.offset then some (cursor.skipCount count)
    else some (cursor.skipValue value)
  | _, _ => none

/-- After so many turns there are no more. -/
inductive Turns (values counts : CellStream) : Nat → Cursor → Cursor → Prop
  | done {cursor : Cursor} (ended : turn? values counts cursor = none) : Turns values counts 0 cursor cursor
  | more {turns : Nat} {cursor after last : Cursor} (taken : turn? values counts cursor = some after)
      (rest : Turns values counts turns after last) : Turns values counts (turns + 1) cursor last

theorem turn?_eq_none (ended : turn? values counts cursor = none) :
    values.fieldAt? cursor.values.field = none ∨ counts.fieldAt? cursor.counts.field = none ∨
      ∃ value count, values.fieldAt? cursor.values.field = some value ∧
        counts.fieldAt? cursor.counts.field = some count ∧ value.offset = count.offset := by
  cases valueAt : values.fieldAt? cursor.values.field with
  | none => exact .inl rfl
  | some value =>
    cases countAt : counts.fieldAt? cursor.counts.field with
    | none => exact .inr (.inl rfl)
    | some count =>
      simp only [turn?, valueAt, countAt] at ended
      split at ended
      · next same => exact .inr (.inr ⟨value, count, rfl, rfl, same⟩)
      · split at ended <;> cases ended

theorem turn?_eq_some (taken : turn? values counts cursor = some after) :
    ∃ value count, values.fieldAt? cursor.values.field = some value ∧
      counts.fieldAt? cursor.counts.field = some count ∧
      (count.offset < value.offset ∧ after = cursor.skipCount count ∨
        value.offset < count.offset ∧ after = cursor.skipValue value) := by
  unfold turn? at taken
  split at taken
  · next value count valueAt countAt =>
    refine ⟨value, count, valueAt, countAt, ?_⟩
    split at taken
    · cases taken
    · split at taken
      · next smaller => exact .inl ⟨smaller, (Option.some.inj taken).symm⟩
      · exact .inr ⟨by omega, (Option.some.inj taken).symm⟩
  · cases taken

/-- Lining the streams up is taking all turns there are, and there is an end to them. -/
theorem exists_turns (values counts : CellStream) (cursor : Cursor) :
    ∃ turns, Turns values counts turns cursor (cursor.align values counts) := by
  fun_induction align values counts cursor with
  | case1 cursor value count valueAt countAt same =>
    exact ⟨0, .done (by simp only [turn?, valueAt, countAt, if_pos same])⟩
  | case2 cursor value count valueAt countAt different smaller ih =>
    obtain ⟨turns, rest⟩ := ih
    exact ⟨turns + 1, .more (by simp only [turn?, valueAt, countAt, if_neg different, if_pos smaller]) rest⟩
  | case3 cursor value count valueAt countAt different notSmaller ih =>
    obtain ⟨turns, rest⟩ := ih
    exact ⟨turns + 1, .more (by simp only [turn?, valueAt, countAt, if_neg different, if_neg notSmaller]) rest⟩
  | case4 cursor ended =>
    refine ⟨0, .done ?_⟩
    unfold turn?
    split
    · next value count valueAt countAt => exact (ended value count valueAt countAt).elim
    · rfl

theorem Turns.ended (run : Turns values counts turns cursor last) : turn? values counts last = none := by
  induction run with
  | done ended => exact ended
  | more _ _ ih => exact ih

/-- Where there is no turn to take, nothing is done. -/
theorem align_of_ended (ended : turn? values counts cursor = none) : cursor.align values counts = cursor := by
  obtain ⟨turns, run⟩ := exists_turns values counts cursor
  generalize cursor.align values counts = last at run ⊢
  cases run with
  | done => rfl
  | more taken _ =>
    rw [ended] at taken
    cases taken

/-- All turns together pass whole cells, one each, and none whose offset was still to come in the other stream. -/
theorem Turns.passes (run : Turns values counts turns cursor last) (valuesOrderly : values.Orderly)
    (countsOrderly : counts.Orderly) (valuesWithin : cursor.values.Within values)
    (countsWithin : cursor.counts.Within counts) :
    ∃ valuesPassed countsPassed, turns = valuesPassed.length + countsPassed.length ∧
      Position.Passes values cursor.values last.values valuesPassed ∧
      Position.Passes counts cursor.counts last.counts countsPassed ∧
      (∀ value ∈ valuesPassed, ∀ count ∈ counts.fieldsFrom cursor.counts.field, value.offset ≠ count.offset) ∧
      ∀ count ∈ countsPassed, ∀ value ∈ values.fieldsFrom cursor.values.field, count.offset ≠ value.offset := by
  induction run with
  | done => exact ⟨[], [], rfl, .refl valuesWithin, .refl countsWithin, by simp, by simp⟩
  | @more turns cursor after last taken _ ih =>
    obtain ⟨value, count, valueAt, countAt, ⟨smaller, rfl⟩ | ⟨smaller, rfl⟩⟩ := turn?_eq_some taken
    · obtain ⟨within, ahead⟩ := countsWithin.past countsOrderly.toFilled countAt
      have alone := valuesOrderly.ne_of_lt_next valuesWithin.even valueAt smaller
      obtain ⟨valuesPassed, countsPassed, length, valuesPast, countsPast, valuesAlone, countsAlone⟩ := ih valuesWithin within
      refine ⟨valuesPassed, count :: countsPassed, ?_, valuesPast, countsPast.cons ahead, ?_, ?_⟩
      · rw [length, List.length_cons]
        rfl
      · intro other passed
        -- The count passed now came before all values to come, those passed later among them.
        have pending : other ∈ values.fieldsFrom cursor.values.field := valuesPast.mem_ahead passed
        rw [ahead]
        exact List.forall_mem_cons.mpr ⟨(alone other pending).symm, valuesAlone other passed⟩
      · exact List.forall_mem_cons.mpr ⟨alone, countsAlone⟩
    · obtain ⟨within, ahead⟩ := valuesWithin.past valuesOrderly.toFilled valueAt
      have alone := countsOrderly.ne_of_lt_next countsWithin.even countAt smaller
      obtain ⟨valuesPassed, countsPassed, length, valuesPast, countsPast, valuesAlone, countsAlone⟩ := ih within countsWithin
      refine ⟨value :: valuesPassed, countsPassed, ?_, valuesPast.cons ahead, countsPast, ?_, ?_⟩
      · rw [length, List.length_cons, Nat.add_right_comm]
      · exact List.forall_mem_cons.mpr ⟨alone, valuesAlone⟩
      · intro other passed
        have pending : other ∈ counts.fieldsFrom cursor.counts.field := countsPast.mem_ahead passed
        rw [ahead]
        exact List.forall_mem_cons.mpr ⟨(alone other pending).symm, countsAlone other passed⟩

/-- In a row with counts, both streams orderly, lining up from between cells takes one turn for each cell passed. Then a
stream has ended or the offsets are equal; no cell passed has an offset that was to come in the other stream; the
positions are past the cells and their payloads, and between cells again; the point read last is the same; and doing it
again changes nothing. -/
theorem sync_passes_unpaired {row : Row} {counts : CellStream} (counted : row.counts? = some counts)
    (valuesOrderly : row.values.Orderly) (countsOrderly : counts.Orderly)
    (valuesWithin : cursor.values.Within row.values) (countsWithin : cursor.counts.Within counts) :
    ∃ valuesPassed countsPassed,
      Turns row.values counts (valuesPassed.length + countsPassed.length) cursor (cursor.sync row) ∧
      ((cursor.sync row).values.field = row.values.fields.length ∨
        (cursor.sync row).counts.field = counts.fields.length ∨
        ∃ value count, row.values.fieldAt? (cursor.sync row).values.field = some value ∧
          counts.fieldAt? (cursor.sync row).counts.field = some count ∧ value.offset = count.offset) ∧
      (∀ value ∈ valuesPassed, ∀ count ∈ counts.fieldsFrom cursor.counts.field, value.offset ≠ count.offset) ∧
      (∀ count ∈ countsPassed, ∀ value ∈ row.values.fieldsFrom cursor.values.field, count.offset ≠ value.offset) ∧
      Position.Passes row.values cursor.values (cursor.sync row).values valuesPassed ∧
      Position.Passes counts cursor.counts (cursor.sync row).counts countsPassed ∧
      (cursor.sync row).current? = cursor.current? ∧ (cursor.sync row).sync row = cursor.sync row := by
  have aligned (cursor : Cursor) : cursor.sync row = cursor.align row.values counts := by simp only [sync, counted]
  obtain ⟨turns, run⟩ := exists_turns row.values counts cursor
  have still := align_of_ended run.ended
  rw [← aligned] at run
  obtain ⟨valuesPassed, countsPassed, rfl, valuesPast, countsPast, valuesAlone, countsAlone⟩ :=
    run.passes valuesOrderly countsOrderly valuesWithin countsWithin
  refine ⟨valuesPassed, countsPassed, run, ?_, valuesAlone, countsAlone, valuesPast, countsPast, sync_current? row cursor,
    ?_⟩
  · rcases turn?_eq_none run.ended with ended | ended | equal
    · exact .inl (valuesPast.within.at_end valuesOrderly.toFilled ended)
    · exact .inr (.inl (countsPast.within.at_end countsOrderly.toFilled ended))
    · exact .inr (.inr equal)
  · rw [aligned, aligned]
    exact still

/-! A value of three bytes that is marked as a float, and a cursor that has passed the offset 1 of the values and the offset
2 of the counts, so that the value of the offset 2 has no partner left. Its mark hides that value from being counted. -/

def raggedCounts : CellStream := ⟨[0, 32, 0, 64, 0, 80], [1, 2, 3]⟩

def ragged : Row := { Gappy.row with values := ⟨[0, 16, 0, 42, 0, 81], [1, 2, 3, 4, 5, 6]⟩, counts? := some raggedCounts }

def raggedCursor : Cursor := { values := ⟨2, 1⟩, counts := ⟨2, 1⟩, skipped := 7, valueMark := 4 }

theorem sync_passes_unpaired_ragged :
    ragged.values.Orderly ∧ raggedCounts.Orderly ∧ raggedCursor.values.Within ragged.values ∧
      raggedCursor.counts.Within raggedCounts ∧
      (∃ valuesPassed countsPassed,
        Turns ragged.values raggedCounts (valuesPassed.length + countsPassed.length) raggedCursor
          (raggedCursor.sync ragged) ∧
        Position.Passes ragged.values raggedCursor.values (raggedCursor.sync ragged).values valuesPassed ∧
        Position.Passes raggedCounts raggedCursor.counts (raggedCursor.sync ragged).counts countsPassed) ∧
      raggedCursor.sync ragged =
        { values := ⟨4, 4⟩, counts := ⟨4, 2⟩, skipped := 8, valueMark := 4, countMark := 4 } ∧
      (raggedCursor.sync ragged).sync ragged = raggedCursor.sync ragged := by
  have valuesOrderly : ragged.values.Orderly := ⟨⟨by decide, by decide⟩, by decide⟩
  have countsOrderly : raggedCounts.Orderly := ⟨⟨by decide, by decide⟩, by decide⟩
  have valuesWithin : raggedCursor.values.Within ragged.values := ⟨by decide, by decide, by decide, by decide⟩
  have countsWithin : raggedCursor.counts.Within raggedCounts := ⟨by decide, by decide, by decide, by decide⟩
  obtain ⟨valuesPassed, countsPassed, run, _, _, _, valuesPast, countsPast, _, still⟩ :=
    sync_passes_unpaired rfl valuesOrderly countsOrderly valuesWithin countsWithin
  exact ⟨valuesOrderly, countsOrderly, valuesWithin, countsWithin, ⟨valuesPassed, countsPassed, run, valuesPast, countsPast⟩,
    by decide +kernel, still⟩

end Cursor

end Rollup
