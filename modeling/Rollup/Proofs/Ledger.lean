import Rollup.Column
import Rollup.Proofs.Cells
import Rollup.StreamBuilder

/-! A stream under construction stands for a ledger: the columns stored in it, each with the field
read from its qualifier. Appending to the packed buffers is recording in the ledger. -/

namespace Rollup

/-- A column with the field of its cell. -/
structure Entry where
  column : Column
  field : Field
  fits : field.checkPayload column.value = .ok ()

namespace Entry

def cell (entry : Entry) : Cell := ⟨entry.field, entry.column.value, entry.fits⟩

def offset (entry : Entry) : Nat := entry.field.offset

end Entry

namespace Ledger

/-- A new entry comes last, and takes the place of one with the same offset. If that one was written
earlier the new entry is left out. -/
def record (stored : List Entry) (entry : Entry) : List Entry :=
  match stored.getLast? with
  | none => [entry]
  | some last =>
    if last.offset < entry.offset then stored ++ [entry]
    else if last.column.timestamp < entry.column.timestamp then stored
    else stored.dropLast ++ [entry]

/-- Offsets go up; the last one may be repeated where duplicates are settled. -/
def Admits (fixDuplicates : Bool) (stored : List Entry) (entry : Entry) : Prop :=
  ∀ last ∈ stored.getLast?, last.offset < entry.offset ∨ fixDuplicates = true ∧ last.offset = entry.offset

theorem record_concat (front : List Entry) (last entry : Entry) :
    record (front ++ [last]) entry =
      if last.offset < entry.offset then front ++ [last] ++ [entry]
      else if last.column.timestamp < entry.column.timestamp then front ++ [last]
      else front ++ [entry] := by
  simp only [record, List.getLast?_concat, List.dropLast_concat]

theorem admits_concat {fixDuplicates : Bool} {front : List Entry} {last entry : Entry} :
    Admits fixDuplicates (front ++ [last]) entry ↔
      last.offset < entry.offset ∨ fixDuplicates = true ∧ last.offset = entry.offset := by
  simp only [Admits, List.getLast?_concat, Option.mem_some_iff, forall_eq']

theorem record_of_lt {stored : List Entry} {entry : Entry}
    (later : ∀ last ∈ stored.getLast?, last.offset < entry.offset) : record stored entry = stored ++ [entry] := by
  rcases List.eq_nil_or_concat stored with rfl | ⟨front, last, rfl⟩
  · rfl
  · rw [List.concat_eq_append] at later ⊢
    rw [record_concat, if_pos (later last (by simp))]

theorem mem_record {stored : List Entry} {entry other : Entry} (member : other ∈ record stored entry) :
    other = entry ∨ other ∈ stored := by
  rcases List.eq_nil_or_concat stored with rfl | ⟨front, last, rfl⟩
  · exact .inl (List.mem_singleton.mp member)
  · rw [List.concat_eq_append] at member ⊢
    rw [record_concat] at member
    split at member
    · simpa [or_comm, or_left_comm, or_assoc] using member
    · split at member
      · exact .inr member
      · rcases List.mem_append.mp member with earlier | new
        · exact .inr (List.mem_append_left _ earlier)
        · exact .inl (List.mem_singleton.mp new)

private theorem increasing_concat {front : List Entry} {entry : Entry} :
    Increasing ((front ++ [entry]).map Entry.cell) ↔
      Increasing (front.map Entry.cell) ∧ ∀ other ∈ front, other.offset < entry.offset := by
  simp [Increasing, List.pairwise_append, Entry.cell, Cell.offset, Entry.offset]

theorem increasing_record {fixDuplicates : Bool} {stored : List Entry} {entry : Entry}
    (increasing : Increasing (stored.map Entry.cell)) (admitted : Admits fixDuplicates stored entry) :
    Increasing ((record stored entry).map Entry.cell) := by
  rcases List.eq_nil_or_concat stored with rfl | ⟨front, last, rfl⟩
  · exact List.pairwise_singleton _ _
  · rw [List.concat_eq_append] at increasing admitted ⊢
    obtain ⟨earlier, below⟩ := increasing_concat.mp increasing
    have order := admits_concat.mp admitted
    rw [record_concat]
    split
    · next greater =>
      apply increasing_concat.mpr ⟨increasing, ?_⟩
      intro other member
      rcases List.mem_append.mp member with old | same
      · exact Nat.lt_trans (below other old) greater
      · rw [List.mem_singleton.mp same]
        exact greater
    · next notGreater =>
      split
      · exact increasing
      · apply increasing_concat.mpr ⟨earlier, ?_⟩
        intro other member
        have lower := below other member
        omega

end Ledger

namespace StreamBuilder
open Ledger

def holding (stored : List Entry) : StreamBuilder :=
  ⟨.pack (stored.map Entry.cell), stored.getLast?.map Entry.offset,
    (stored.getLast?.map fun last => last.column.timestamp).getD 0⟩

theorem store_holding (stored : List Entry) (entry : Entry) :
    (holding stored).store entry.field entry.column.value entry.column.timestamp =
      holding (stored ++ [entry]) := by
  have pushed := CellStream.push_pack (stored.map Entry.cell) entry.cell
  simp only [store, holding, List.map_append, List.map_cons, List.map_nil, List.getLast?_concat, Option.map_some,
    Option.getD_some]
  rw [← pushed]
  rfl

theorem replace_holding (front : List Entry) (last entry : Entry) :
    StreamBuilder.store { holding (front ++ [last]) with cells := (holding (front ++ [last])).cells.pop }
      entry.field entry.column.value entry.column.timestamp = holding (front ++ [entry]) := by
  have popped : (holding (front ++ [last])).cells.pop = .pack (front.map Entry.cell) := by
    simp only [holding, List.map_append, List.map_cons, List.map_nil]
    exact CellStream.pop_pack _ _
  rw [popped, ← store_holding front entry]
  rfl

variable {kind : StreamKind} {fixDuplicates : Bool} {stored : List Entry} {entry : Entry}

theorem append_of_admits (admitted : Admits fixDuplicates stored entry) :
    (holding stored).append kind fixDuplicates entry.field entry.column.value entry.column.timestamp =
      (.ok (), holding (record stored entry)) := by
  rcases List.eq_nil_or_concat stored with rfl | ⟨front, last, rfl⟩
  · exact congrArg (Prod.mk _) (store_holding [] entry)
  · rw [List.concat_eq_append] at admitted ⊢
    have order := admits_concat.mp admitted
    have lastOffset : (holding (front ++ [last])).lastOffset? = some last.offset := by simp [holding]
    have lastWritten : (holding (front ++ [last])).lastWritten = last.column.timestamp := by simp [holding]
    simp only [append, lastOffset, lastWritten, record_concat]
    by_cases greater : last.offset < entry.offset
    · have above : last.offset < entry.field.offset := greater
      rw [if_pos above, if_pos greater, store_holding]
    · obtain ⟨fixed, same⟩ := order.resolve_left greater
      have repeated : entry.field.offset = last.offset := same.symm
      rw [if_neg (by rw [repeated]; exact Nat.lt_irrefl _), if_neg (by simp [repeated, fixed]), if_neg greater]
      split
      · rfl
      · exact congrArg (Prod.mk _) (replace_holding front last entry)

theorem append_of_not_admits (refused : ¬ Admits fixDuplicates stored entry) :
    ∃ last ∈ stored.getLast?,
      (holding stored).append kind fixDuplicates entry.field entry.column.value entry.column.timestamp =
        (.error (.outOfOrder kind entry.offset last.offset), holding stored) := by
  rcases List.eq_nil_or_concat stored with rfl | ⟨front, last, rfl⟩
  · apply absurd _ refused
    intro last member
    cases member
  · rw [List.concat_eq_append] at refused ⊢
    have order := mt admits_concat.mpr refused
    have lastOffset : (holding (front ++ [last])).lastOffset? = some last.offset := by simp [holding]
    refine ⟨last, by simp, ?_⟩
    simp only [append, lastOffset]
    have notGreater : ¬ last.offset < entry.field.offset := by
      intro greater
      exact order (.inl greater)
    have notRepeated : entry.field.offset ≠ last.offset ∨ (!fixDuplicates) = true := by
      by_cases same : entry.field.offset = last.offset
      · cases fixDuplicates with
        | false => exact .inr rfl
        | true => exact absurd (.inr ⟨rfl, same.symm⟩) order
      · exact .inl same
    rw [if_neg notGreater, if_pos notRepeated]
    rfl

/-- A cell is refused for its offset, and then nothing changes. -/
theorem append_refused {builder after : StreamBuilder} {field : Field} {payload : Bytes} {written : UInt64}
    {cause : AppendError} (refused : builder.append kind fixDuplicates field payload written = (.error cause, after)) :
    after = builder := by
  unfold append at refused
  split at refused
  · cases refused
  · split_ifs at refused <;> cases refused
    rfl

end StreamBuilder

end Rollup
