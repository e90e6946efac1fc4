import Rollup.Proofs.Standing

/-! A saved word is a position in the values. Going back to one finds the gap in the values that the
position stands for, and looks the counts up anew; any other word is refused. -/

namespace Rollup

namespace CellStream

theorem length_payloads_pack_le (cells : List Cell) : (pack cells).payloads.length ≤ 8 * cells.length := by
  rw [length_payloads_pack]
  induction cells with
  | nil => exact Nat.le_refl _
  | cons cell cells ih =>
    have width := cell.field.width_le
    rw [List.map_cons, List.sum_cons, List.length_cons]
    omega

theorem take_fields_pack (gap : Gap) :
    (pack gap.cells).fields.take gap.position.field = (pack gap.passed).fields := by
  rw [Gap.cells, pack_append, gap.position_field, ← length_fields_pack, List.take_left]

/-- The bytes that the payloads of the first cells take up together. -/
def payloadBytes (stream : CellStream) (passed : Nat) : Nat := ((stream.fieldList.take passed).map Field.width).sum

/-- The word for the place behind some of the cells. The fields of these end at its high half, and their payloads at its
low half. -/
structure Boundary (stream : CellStream) (passed : Nat) (token : UInt64) : Prop where
  inside : passed ≤ stream.size
  field : token.toNat / Cursor.half = Field.size * passed
  payload : token.toNat % Cursor.half = stream.payloadBytes passed

/-- What is wrong with a word that is no boundary. -/
inductive Refusal (stream : CellStream) (token : UInt64) : ReadError → Prop
  | fieldOutside
      (outside : token.toNat / Cursor.half % Field.size ≠ 0 ∨ stream.fields.length < token.toNat / Cursor.half) :
      Refusal stream token (.outOfBounds (token.toNat / Cursor.half) stream.fields.length)
  | payloadOutside (even : token.toNat / Cursor.half % Field.size = 0)
      (inside : token.toNat / Cursor.half ≤ stream.fields.length)
      (outside : stream.payloads.length < token.toNat % Cursor.half) :
      Refusal stream token (.outOfBounds (token.toNat % Cursor.half) stream.payloads.length)
  | misaligned {passed : Nat} (inside : passed ≤ stream.size) (field : token.toNat / Cursor.half = Field.size * passed)
      (fits : token.toNat % Cursor.half ≤ stream.payloads.length)
      (differs : token.toNat % Cursor.half ≠ stream.payloadBytes passed) :
      Refusal stream token
        (.misaligned (token.toNat / Cursor.half) (token.toNat % Cursor.half) (stream.payloadBytes passed))

end CellStream

namespace Gap

theorem position_le (gap : Gap) :
    gap.position.field ≤ (CellStream.pack gap.cells).fields.length ∧
      gap.position.payload ≤ (CellStream.pack gap.cells).payloads.length := by
  rw [position, Position.after_fields, cells, CellStream.pack_append, List.length_append, List.length_append]
  exact ⟨Nat.le_add_right _ _, Nat.le_add_right _ _⟩

/-- A position in increasing cells fits into the halves of a word. -/
theorem position_lt_half {gap : Gap} (increasing : Increasing gap.cells) :
    gap.position.field < Cursor.half ∧ gap.position.payload < Cursor.half := by
  obtain ⟨field, payload⟩ := gap.position_le
  have payloads := CellStream.length_payloads_pack_le gap.cells
  have cells := increasing.length_le
  rw [CellStream.length_fields_pack] at field
  unfold Field.size at field
  unfold Cursor.half
  omega

theorem exists_passed {cells : List Cell} {passed : Nat} (inside : passed ≤ cells.length) :
    ∃ gap : Gap, gap.cells = cells ∧ gap.passed.length = passed :=
  ⟨⟨cells.take passed, cells.drop passed⟩, List.take_append_drop _ _, List.length_take_of_le inside⟩

theorem take_fieldList (gap : Gap) :
    (CellStream.pack gap.cells).fieldList.take gap.passed.length = gap.passed.map Cell.field := by
  rw [CellStream.fieldList_pack, cells, List.map_append, List.take_left' (List.length_map _)]

theorem payloadBytes (gap : Gap) : (CellStream.pack gap.cells).payloadBytes gap.passed.length = gap.position.payload := by
  rw [CellStream.payloadBytes, gap.take_fieldList, position, Position.payload_after]

variable {token : UInt64}

theorem boundary {gap : Gap} (field : token.toNat / Cursor.half = gap.position.field)
    (payload : token.toNat % Cursor.half = gap.position.payload) :
    (CellStream.pack gap.cells).Boundary gap.passed.length token := by
  refine ⟨?_, field.trans gap.position_field, payload.trans gap.payloadBytes.symm⟩
  rw [CellStream.size_pack, cells, List.length_append]
  exact Nat.le_add_right _ _

theorem exists_of_boundary {cells : List Cell} {passed : Nat} (boundary : (CellStream.pack cells).Boundary passed token) :
    ∃ gap : Gap, gap.cells = cells ∧ gap.passed.length = passed ∧ token.toNat / Cursor.half = gap.position.field ∧
      token.toNat % Cursor.half = gap.position.payload := by
  have inside := boundary.inside
  rw [CellStream.size_pack] at inside
  obtain ⟨gap, rfl, rfl⟩ := exists_passed inside
  exact ⟨gap, rfl, rfl, boundary.field.trans gap.position_field.symm, boundary.payload.trans gap.payloadBytes⟩

end Gap

/-- Nothing is wrong with a boundary of packed cells. -/
theorem CellStream.Boundary.not_refusal {cells : List Cell} {passed : Nat} {token : UInt64} {cause : ReadError}
    (boundary : (pack cells).Boundary passed token) : ¬ (pack cells).Refusal token cause := by
  obtain ⟨gap, rfl, rfl, field, payload⟩ := Gap.exists_of_boundary boundary
  obtain ⟨fieldInside, payloadInside⟩ := gap.position_le
  have even := gap.aligned_position
  rw [← field] at even
  rintro (outside | ⟨_, _, outside⟩ | ⟨_, sameField, _, differs⟩)
  · omega
  · omega
  · have same := boundary.field.symm.trans sameField
    rw [← Nat.eq_of_mul_eq_mul_left (by decide) same] at differs
    exact differs boundary.payload

namespace Cursor

theorem save_halves {cursor : Cursor} (field : cursor.values.field < half) (payload : cursor.values.payload < half) :
    cursor.save.toNat / half = cursor.values.field ∧ cursor.save.toNat % half = cursor.values.payload := by
  unfold half at field payload
  unfold save half
  rw [UInt64.toNat_ofNat']
  omega

/-- Cells of a row, with counts where it has any, each stream in increasing order. -/
structure Packs (row : Row) (cells : List Cell × Option (List Cell)) : Prop where
  values : row.values = .pack cells.1
  counts : row.counts? = cells.2.map .pack
  increasing : Increasing cells.1
  countsIncreasing : ∀ counts ∈ cells.2, Increasing counts

variable {row : Row} {cursor : Cursor} {place : Place} {token : UInt64}

theorem Stands.packs (stands : Stands row cursor place) : Packs row place.cells := by
  refine ⟨stands.values, stands.counts, stands.sound.values, ?_⟩
  intro counts member
  obtain ⟨gap, held, rfl⟩ := Option.map_eq_some_iff.mp member
  exact stands.sound.counts gap held

theorem Packs.stands {cells : List Cell × Option (List Cell)} (packs : Packs row cells)
    (values : cursor.values = {}) (counts : cursor.counts = {}) :
    Stands row cursor (.start cells.1 cells.2) := by
  have whole := Place.cells_start cells.1 cells.2
  refine ⟨by rw [whole]; exact packs.values, by rw [whole]; exact packs.counts, values, ?_, ?_⟩
  · intro gap member
    obtain ⟨_, _, rfl⟩ := Option.map_eq_some_iff.mp member
    exact counts
  · exact Place.sound_start packs.increasing packs.countsIncreasing

theorem Stands.seek (stands : Stands row cursor place) (timestamp : UInt64) :
    Stands row (cursor.seek row timestamp)
      ((Place.start place.cells.1 place.cells.2).skip fun value =>
        row.timestamp value.offset < Timestamp.normalize timestamp row.resolution) := by
  have fresh : Stands row
      { skipped := cursor.skipped, valueMark := cursor.valueMark, countMark := cursor.countMark }
      (.start place.cells.1 place.cells.2) := stands.packs.stands rfl rfl
  have skipped := fresh.skipBefore (Timestamp.normalize timestamp row.resolution)
  exact ⟨skipped.values, skipped.counts, skipped.valuesAt, skipped.countsAt, skipped.sound⟩

/-- The counts looked up beside a gap in the values stand where they are realigned. -/
theorem countsBeside_position {values : Gap} {counts : List Cell} (rowValues : row.values = .pack values.cells)
    (rowCounts : row.counts? = some (.pack counts)) :
    countsBeside row values.position.field = (Merge.realigned values counts).position := by
  obtain ⟨passed, pending⟩ := values
  rw [countsBeside, Gap.position_field, rowValues, rowCounts]
  rcases List.eq_nil_or_concat passed with rfl | ⟨front, last, rfl⟩
  · rfl
  · rw [List.concat_eq_append]
    have found : (CellStream.pack (Gap.cells ⟨front ++ [last], pending⟩)).fieldAt?
        (Field.size * (front ++ [last]).length - Field.size) = some last.field := by
      have here := Gap.fieldAt?_position ⟨front, last :: pending⟩
      rw [Gap.position_field] at here
      simpa [Gap.cells, Nat.mul_succ] using here
    have notFirst : ¬ Field.size * (front ++ [last]).length < Field.size := by
      simp [Nat.mul_succ]
    simp only [if_neg notFirst, found, Merge.realigned, List.getLast?_concat, CellStream.fieldList_pack,
      List.takeWhile_map, Gap.position]
    rfl

/-- What becomes of a word. One that is refused moves nothing. -/
inductive Restored (row : Row) (token : UInt64) (cursor : Cursor) : Except ReadError Unit × Cursor → Prop
  | refused {cause : ReadError} (refusal : row.values.Refusal token cause) :
      Restored row token cursor (.error cause, cursor)
  | taken {passed : Nat} (boundary : row.values.Boundary passed token)
      (fits : token.toNat % half ≤ row.values.payloads.length) :
      Restored row token cursor
        (.ok (), { cursor with
          values := ⟨token.toNat / half, token.toNat % half⟩
          counts := countsBeside row (token.toNat / half)
          current? := none })

theorem restore_restored (row : Row) (token : UInt64) (cursor : Cursor) :
    Restored row token cursor (cursor.restore row token) := by
  unfold restore
  simp only
  split
  · next outside => exact .refused (.fieldOutside outside.symm)
  · next inside =>
    split
    · next outside => exact .refused (.payloadOutside (by omega) (by omega) outside)
    · next fits =>
      obtain ⟨passed, field⟩ : ∃ passed, token.toNat / half = Field.size * passed :=
        Nat.dvd_of_mod_eq_zero (by omega)
      have within : passed ≤ row.values.size := by
        unfold CellStream.size Field.size at *
        omega
      have expected : (Position.after (Field.list (row.values.fields.take (token.toNat / half)))).payload =
          row.values.payloadBytes passed := by
        rw [field, Field.list_take, Position.payload_after]
        rfl
      rw [expected]
      split
      · next differs => exact .refused (.misaligned within field (by omega) differs)
      · next aligned => exact .taken ⟨within, field, by omega⟩ (by omega)

theorem restore_result (row : Row) (token : UInt64) (first second : Cursor) :
    (first.restore row token).1 = (second.restore row token).1 := by
  unfold restore
  simp only
  split
  · rfl
  · split
    · rfl
    · split <;> rfl

theorem restore_error {cause : ReadError} (refused : (cursor.restore row token).1 = .error cause) :
    (cursor.restore row token).2 = cursor := by
  have restored := restore_restored row token cursor
  generalize cursor.restore row token = outcome at refused restored ⊢
  cases restored with
  | refused => rfl
  | taken => cases refused

/-- A token is taken at both of two cursors or at neither, and one that is not leaves them as they were. -/
theorem restore_keeps {first second : Cursor} {related : Cursor → Cursor → Prop} (before : related first second)
    (taken : (first.restore row token).1 = .ok () → (second.restore row token).1 = .ok () →
      related (first.restore row token).2 (second.restore row token).2) :
    (first.restore row token).1 = (second.restore row token).1 ∧
      related (first.restore row token).2 (second.restore row token).2 := by
  have same := restore_result row token first second
  refine ⟨same, ?_⟩
  cases restored : (first.restore row token).1 with
  | error cause =>
    rw [restore_error restored, restore_error (same ▸ restored)]
    exact before
  | ok _ => exact taken restored (same ▸ restored)

theorem current?_of_restored (restored : (cursor.restore row token).1 = .ok ()) :
    (cursor.restore row token).2.current? = none := by
  have outcome := restore_restored row token cursor
  generalize cursor.restore row token = result at restored outcome ⊢
  cases outcome with
  | refused => cases restored
  | taken => rfl

/-- The word of a position is taken, and leads to its gap. -/
theorem Stands.restore_position {gap : Gap} (stands : Stands row cursor place) (cells : gap.cells = place.cells.1)
    (field : token.toNat / half = gap.position.field) (payload : token.toNat % half = gap.position.payload) :
    (cursor.restore row token).1 = .ok () ∧
      Stands row (cursor.restore row token).2 (.resume gap place.cells.2) := by
  have whole := Place.cells_resume gap place.cells.2
  have packs := stands.packs
  have rowValues : row.values = .pack gap.cells := by rw [cells]; exact packs.values
  have restored := restore_restored row token cursor
  generalize cursor.restore row token = outcome at restored ⊢
  cases restored with
  | refused refusal =>
    rw [rowValues] at refusal
    exact absurd refusal (Gap.boundary field payload).not_refusal
  | taken =>
    refine ⟨rfl, ⟨by rw [whole]; exact rowValues, by rw [whole]; exact packs.counts, ?_, ?_, ?_⟩⟩
    · simp only [field, payload]
      rfl
    · intro counts member
      obtain ⟨list, held, rfl⟩ := Option.map_eq_some_iff.mp member
      simp only [field]
      refine countsBeside_position rowValues ?_
      rw [packs.counts, held, Option.map_some]
    · refine Place.sound_resume ?_ packs.countsIncreasing
      rw [cells]
      exact packs.increasing

/-- No other word is taken. -/
theorem Stands.restore_ok (stands : Stands row cursor place) (restored : (cursor.restore row token).1 = .ok ()) :
    ∃ gap : Gap, gap.cells = place.cells.1 ∧ token.toNat / half = gap.position.field ∧
      token.toNat % half = gap.position.payload := by
  have outcome := restore_restored row token cursor
  generalize cursor.restore row token = result at restored outcome
  cases outcome with
  | refused => cases restored
  | taken boundary =>
    rw [stands.values] at boundary
    obtain ⟨gap, cells, _, field, payload⟩ := Gap.exists_of_boundary boundary
    exact ⟨gap, cells, field, payload⟩

theorem Stands.save_halves (stands : Stands row cursor place) :
    cursor.save.toNat / half = place.values.position.field ∧
      cursor.save.toNat % half = place.values.position.payload := by
  obtain ⟨field, payload⟩ := Gap.position_lt_half stands.sound.values
  rw [← stands.valuesAt] at field payload ⊢
  exact Cursor.save_halves field payload

end Cursor

end Rollup
