import Mathlib.Algebra.Ring.Nat
import Rollup.CellStream
import Rollup.Proofs.FieldCodec

/-! The cells that a stream packs. Packing loses nothing: the fields come back as a list, and cutting
the payload bytes at their widths gives back every payload. -/

namespace Rollup

/-- A field with a payload that it announces. -/
structure Cell where
  field : Field
  payload : Bytes
  fits : field.checkPayload payload = .ok ()

namespace Cell

def offset (cell : Cell) : Nat := cell.field.offset

theorem length_payload (cell : Cell) : cell.payload.length = cell.field.width :=
  (Field.checkPayload_ok_iff.mp cell.fits).1

theorem allowed (cell : Cell) : Field.allowsWidth cell.field.kind cell.field.width = true :=
  (Field.checkPayload_ok_iff.mp cell.fits).2

end Cell

def Increasing (cells : List Cell) : Prop :=
  cells.Pairwise fun first second => first.offset < second.offset

namespace Increasing

theorem sublist {part cells : List Cell} (increasing : Increasing cells) (sub : part.Sublist cells) :
    Increasing part := List.Pairwise.sublist sub increasing

theorem nil : Increasing [] := List.Pairwise.nil

private theorem length_le_of_from {cells : List Cell} (increasing : Increasing cells) (least : Nat)
    (above : ∀ cell ∈ cells, least ≤ cell.offset) (room : least ≤ Field.maxOffset + 1) :
    cells.length ≤ Field.maxOffset + 1 - least := by
  induction cells generalizing least with
  | nil => simp
  | cons cell cells ih =>
    obtain ⟨later, rest⟩ := List.pairwise_cons.mp increasing
    have first := above cell (by simp)
    have last := cell.field.offset_le
    unfold Cell.offset at first
    have bound : cells.length ≤ Field.maxOffset + 1 - (cell.field.offset + 1) := by
      apply ih rest (cell.field.offset + 1) ?_ (by omega)
      intro other member
      exact later other member
    simp only [List.length_cons]
    omega

/-- A field has room for 4096 offsets, so there are no more cells than that. -/
theorem length_le {cells : List Cell} (increasing : Increasing cells) : cells.length ≤ 4096 := by
  simpa [Field.maxOffset] using length_le_of_from increasing 0 (by simp) (by simp [Field.maxOffset])

end Increasing

namespace CellStream

/-- Payload bytes cut at the widths of the fields. -/
def cut : List Field → Bytes → List Bytes
  | [], _ => []
  | field :: fields, payloads => payloads.take field.width :: cut fields (payloads.drop field.width)

/-- The cells of a stream as its fields tell them apart. -/
def cells (stream : CellStream) : List (Field × Bytes) :=
  stream.fieldList.zip (cut stream.fieldList stream.payloads)

def pack (cells : List Cell) : CellStream :=
  ⟨cells.flatMap fun cell => cell.field.bytes, cells.flatMap Cell.payload⟩

theorem fields_pack (cells : List Cell) : (pack cells).fields = (cells.map Cell.field).flatMap Field.bytes := by
  rw [List.flatMap_map, pack]

theorem pack_append (first second : List Cell) :
    pack (first ++ second) =
      ⟨(pack first).fields ++ (pack second).fields, (pack first).payloads ++ (pack second).payloads⟩ := by
  simp only [pack, List.flatMap_append]

theorem length_fields_pack (cells : List Cell) : (pack cells).fields.length = Field.size * cells.length := by
  rw [fields_pack, Field.length_flatMap_bytes, List.length_map]

theorem length_payloads_pack (cells : List Cell) :
    (pack cells).payloads.length = (cells.map fun cell => cell.field.width).sum := by
  simp only [pack, List.length_flatMap, Cell.length_payload]

@[simp] theorem size_pack (cells : List Cell) : (pack cells).size = cells.length := by
  rw [size, length_fields_pack, Nat.mul_div_cancel_left _ (by decide)]

@[simp] theorem fieldList_pack (cells : List Cell) : (pack cells).fieldList = cells.map Cell.field := by
  rw [fieldList, fields_pack, Field.list_flatMap_bytes]

theorem cut_payloads (cells : List Cell) :
    cut (cells.map Cell.field) (cells.flatMap Cell.payload) = cells.map Cell.payload := by
  induction cells with
  | nil => rfl
  | cons cell cells ih =>
    have width := cell.length_payload
    rw [List.map_cons, List.flatMap_cons, cut, ← width, List.take_left, List.drop_left, ih, List.map_cons]

theorem cells_pack (cells : List Cell) :
    (pack cells).cells = cells.map fun cell => (cell.field, cell.payload) := by
  rw [CellStream.cells, fieldList_pack]
  simp only [pack]
  rw [cut_payloads, List.zip_map']

theorem push_pack (cells : List Cell) (cell : Cell) :
    (pack cells).push cell.field cell.payload = pack (cells ++ [cell]) := by
  simp only [push, pack, List.flatMap_append, List.flatMap_cons, List.flatMap_nil, List.append_nil]

theorem fieldAt?_index (cells : List Cell) (index : Nat) :
    (pack cells).fieldAt? (Field.size * index) = cells[index]?.map Cell.field := by
  rw [fieldAt?, Field.at?_eq_head?, Field.list_drop, List.head?_drop, ← fieldList, fieldList_pack, List.getElem?_map]

theorem fieldAt?_pack (front back : List Cell) :
    (pack (front ++ back)).fieldAt? (pack front).fields.length = back.head?.map Cell.field := by
  rw [length_fields_pack, fieldAt?_index, List.getElem?_append_right (Nat.le_refl _), Nat.sub_self, List.head?_eq_getElem?]

theorem payloadAt?_pack (front back : List Cell) (cell : Cell) :
    (pack (front ++ cell :: back)).payloadAt? (pack front).payloads.length cell.field.width =
      some cell.payload := by
  have width := cell.length_payload
  rw [payloadAt?, pack_append]
  simp only [pack, List.flatMap_cons, List.length_append]
  rw [if_pos (by omega), List.drop_left, ← width, List.take_left]

/-- What is read for the width of the last cell is the field pushed last, even behind a lone byte. -/
theorem fieldAt?_push (stream : CellStream) (field : Field) (payload : Bytes) :
    (stream.push field payload).fieldAt? ((stream.push field payload).fields.length - Field.size) = some field := by
  have start : (stream.push field payload).fields.length - Field.size = stream.fields.length := by
    simp only [push, List.length_append, Field.length_bytes, Nat.add_sub_cancel]
  have found := Field.at?_append stream.fields [] field
  rw [List.append_nil] at found
  rw [start]
  exact found

/-- A push is taken back byte for byte. -/
theorem pop_push (stream : CellStream) {field : Field} {payload : Bytes} (fits : payload.length = field.width) :
    (stream.push field payload).pop = stream := by
  have long : ¬ (stream.push field payload).fields.length < Field.size := by
    simp only [push, List.length_append, Field.length_bytes]
    omega
  simp only [pop, if_neg long, fieldAt?_push]
  simp only [push, List.length_append, Field.length_bytes, ← fits, Nat.add_sub_cancel, List.take_left]

theorem pop_pack (cells : List Cell) (cell : Cell) : (pack (cells ++ [cell])).pop = pack cells := by
  rw [← push_pack]
  exact (pack cells).pop_push cell.length_payload

end CellStream

end Rollup
