import Rollup.Proofs.Cells

/-! Taking back the last cell of a stream. Only widths matter for it, whatever else the fields say: a stream whose
payload bytes are as many as its fields announce is empty or a smaller one of that kind with a cell behind it, and that
cell is what is taken back. -/

namespace Rollup.CellStream

/-- Whole fields, and as many payload bytes as they announce. -/
structure Filled (stream : CellStream) : Prop where
  fields : stream.fields.length % Field.size = 0
  payloads : stream.payloads.length = (stream.fieldList.map Field.width).sum

variable {stream : CellStream} {field : Field} {payload : Bytes}

theorem pop_of_no_fields (empty : stream.fields = []) : stream.pop = stream := by
  have short : stream.fields.length < Field.size := by
    rw [empty]
    decide
  rw [pop, if_pos short]

theorem fieldList_push (even : stream.fields.length % Field.size = 0) :
    (stream.push field payload).fieldList = stream.fieldList ++ [field] := by
  have shape : stream.fields ++ field.bytes = (stream.fieldList ++ [field]).flatMap Field.bytes := by
    rw [List.flatMap_append, List.flatMap_singleton, fieldList, Field.flatMap_bytes_list even]
  rw [push, fieldList, shape, Field.list_flatMap_bytes]

private theorem cut_concat {fields : List Field} {payloads : Bytes}
    (filled : payloads.length = (fields.map Field.width).sum) (fits : payload.length = field.width) :
    cut (fields ++ [field]) (payloads ++ payload) = cut fields payloads ++ [payload] := by
  induction fields generalizing payloads with
  | nil =>
    have empty : payloads = [] := List.length_eq_zero_iff.mp filled
    simp only [empty, List.nil_append, cut, List.take_of_length_le (Nat.le_of_eq fits)]
  | cons first fields ih =>
    have inside : first.width ≤ payloads.length := by
      rw [filled, List.map_cons, List.sum_cons]
      exact Nat.le_add_right _ _
    have rest : (payloads.drop first.width).length = (fields.map Field.width).sum := by
      rw [List.length_drop, filled, List.map_cons, List.sum_cons, Nat.add_sub_cancel_left]
    rw [List.cons_append, cut, List.take_append_of_le_length inside, List.drop_append_of_le_length inside, ih rest, cut,
      List.cons_append]

private theorem length_cut (fields : List Field) (payloads : Bytes) : (cut fields payloads).length = fields.length := by
  induction fields generalizing payloads with
  | nil => rfl
  | cons field fields ih => rw [cut, List.length_cons, ih, List.length_cons]

namespace Filled

/-- The cells of a stream with one pushed are its own with this one behind them. -/
theorem cells_push (filled : stream.Filled) (fits : payload.length = field.width) :
    (stream.push field payload).cells = stream.cells ++ [(field, payload)] := by
  rw [cells, fieldList_push filled.fields]
  simp only [push, cells]
  rw [cut_concat filled.payloads fits, List.zip_append (length_cut _ _).symm]
  rfl

/-- A stream with a last field is a smaller one with a cell pushed. -/
private theorem exists_push_of_fieldList (filled : stream.Filled) {front : List Field} {last : Field}
    (shape : stream.fieldList = front ++ [last]) :
    ∃ (rest : CellStream) (payload : Bytes),
      rest.Filled ∧ payload.length = last.width ∧ stream = rest.push last payload := by
  have fields : stream.fields = front.flatMap Field.bytes ++ last.bytes := by
    rw [← Field.flatMap_bytes_list filled.fields]
    change stream.fieldList.flatMap Field.bytes = _
    rw [shape, List.flatMap_append, List.flatMap_singleton]
  have length : stream.payloads.length = (front.map Field.width).sum + last.width := by
    rw [filled.payloads, shape, List.map_append, List.sum_append, List.map_singleton, List.sum_singleton]
  refine ⟨⟨front.flatMap Field.bytes, stream.payloads.take (front.map Field.width).sum⟩,
    stream.payloads.drop (front.map Field.width).sum, ⟨?_, ?_⟩, ?_, ?_⟩
  · rw [Field.length_flatMap_bytes, Nat.mul_mod_right]
  · rw [fieldList, Field.list_flatMap_bytes, List.length_take, length]
    exact Nat.min_eq_left (Nat.le_add_right _ _)
  · rw [List.length_drop, length, Nat.add_sub_cancel_left]
  · rw [CellStream.push, List.take_append_drop, ← fields]

theorem exists_push (filled : stream.Filled) (nonempty : stream ≠ .empty) :
    ∃ (rest : CellStream) (last : Field) (payload : Bytes),
      rest.Filled ∧ payload.length = last.width ∧ stream = rest.push last payload := by
  rcases List.eq_nil_or_concat stream.fieldList with empty | ⟨front, last, shape⟩
  · have fields : stream.fields = [] := by
      rw [← Field.flatMap_bytes_list filled.fields]
      change stream.fieldList.flatMap Field.bytes = []
      rw [empty, List.flatMap_nil]
    have payloads : stream.payloads = [] := by
      apply List.length_eq_zero_iff.mp
      rw [filled.payloads, empty]
      rfl
    exact absurd (congrArg₂ CellStream.mk fields payloads) nonempty
  · rw [List.concat_eq_append] at shape
    obtain ⟨rest, payload, smaller, fits, same⟩ := filled.exists_push_of_fieldList shape
    exact ⟨rest, last, payload, smaller, fits, same⟩

end Filled

/-- Taking back undoes a push, whatever stands in the stream. Of a stream whose payload bytes are as many as its fields
announce it takes the last cell and no other byte, and an empty stream stays as it is. -/
theorem pop_takes_last_cell (stream : CellStream) :
    (∀ field payload, payload.length = field.width → (stream.push field payload).pop = stream) ∧
      (stream.Filled → stream ≠ .empty → ∃ last payload, payload.length = last.width ∧
        stream.cells = stream.pop.cells ++ [(last, payload)] ∧
        stream.fields = stream.pop.fields ++ last.bytes ∧ stream.payloads = stream.pop.payloads ++ payload ∧
        stream.pop.Filled ∧
        stream.fieldAt? (stream.fields.length - Field.size) = some last ∧ last.width ≤ stream.payloads.length) ∧
      (stream.fields = [] → stream.pop = stream) := by
  refine ⟨fun field payload fits => stream.pop_push fits, ?_, pop_of_no_fields⟩
  intro filled nonempty
  obtain ⟨rest, last, payload, smaller, fits, rfl⟩ := filled.exists_push nonempty
  refine ⟨last, payload, fits, ?_, ?_, ?_, ?_, rest.fieldAt?_push last payload, ?_⟩
  · rw [rest.pop_push fits]
    exact smaller.cells_push fits
  · rw [rest.pop_push fits]
    rfl
  · rw [rest.pop_push fits]
    rfl
  · rw [rest.pop_push fits]
    exact smaller
  · rw [← fits, push, List.length_append]
    exact Nat.le_add_left _ _

/-- A cell of three bytes that is marked as a float, and one of six bytes. -/
def uneven : CellStream := ⟨[0, 26, 0, 37], [1, 2, 3, 4, 5, 6, 7, 8, 9]⟩

theorem pop_takes_last_cell_uneven :
    uneven.Filled ∧ (uneven.push ⟨48⟩ [10]).pop = uneven ∧
      uneven.cells = [(⟨26⟩, [1, 2, 3]), (⟨37⟩, [4, 5, 6, 7, 8, 9])] ∧
      (∃ last payload, payload.length = last.width ∧ uneven.cells = uneven.pop.cells ++ [(last, payload)] ∧
        uneven.payloads = uneven.pop.payloads ++ payload ∧ uneven.pop.Filled) ∧
      uneven.pop = ⟨[0, 26], [1, 2, 3]⟩ ∧ empty.pop = empty := by
  have filled : uneven.Filled := ⟨by decide, by decide⟩
  obtain ⟨undone, taken, _⟩ := pop_takes_last_cell uneven
  obtain ⟨last, payload, fits, cells, _, payloads, smaller, _⟩ := taken filled (by decide)
  exact ⟨filled, undone ⟨48⟩ [10] (by decide), by decide, ⟨last, payload, fits, cells, payloads, smaller⟩, by decide,
    (pop_takes_last_cell empty).2.2 rfl⟩

end Rollup.CellStream
