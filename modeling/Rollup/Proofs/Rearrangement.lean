import Mathlib.Data.Fin.VecNotation
import Mathlib.Data.List.FinRange
import Mathlib.Data.List.Sort
import Rollup.Proofs.Traversal
import Rollup.Proofs.Written

/-! The two streams of a row do not see each other. What is said to a column depends on the columns of its own stream
before it, so the columns of a row may be interleaved anew as long as each stream gets its own in the same order. -/

namespace Rollup

namespace Selection

/-- The column's qualifier is one of the stream's. Whether the stream takes the cell is another matter. -/
def routes (selection : Selection) (kind : StreamKind) (column : Column) : Bool :=
  match selection.classify column.qualifier with
  | .ok route => route.stream = kind
  | .error _ => false

/-- The second list has the columns of the first in other places, those of each stream in the same order. -/
structure Rearranges (selection : Selection) (first second : List Column)
    (place : Fin second.length ≃ Fin first.length) : Prop where
  moved : ∀ index, second.get index = first.get (place index)
  order : ∀ kind earlier later, selection.routes kind (second.get earlier) = true →
    selection.routes kind (second.get later) = true → earlier < later → place earlier < place later

variable {selection : Selection} {kind stream : StreamKind} {column : Column} {entry : Entry}

theorem routes_of_entry (made : selection.entry column = .ok (stream, entry)) :
    selection.routes kind column = decide (stream = kind) := by
  obtain ⟨_, encoding, routed, _⟩ := entry_ok_iff.mp made
  simp only [routes, routed]

end Selection

private theorem mem_take_finRange {size count : Nat} {index : Fin size} :
    index ∈ (List.finRange size).take count ↔ index.val < count := by
  rw [List.mem_take_iff_getElem]
  constructor
  · rintro ⟨other, inside, rfl⟩
    rw [List.getElem_finRange]
    exact Nat.lt_of_lt_of_le inside (Nat.min_le_left _ _)
  · intro below
    refine ⟨index.val, ?_, ?_⟩
    · rw [List.length_finRange]
      exact Nat.lt_min.mpr ⟨below, index.isLt⟩
    · rw [List.getElem_finRange]
      rfl

private theorem filter_take {α : Type} (keeps : α → Bool) (items : List α) (count : Nat) :
    (items.take count).filter keeps =
      (((List.finRange items.length).take count).filter fun index => keeps (items.get index)).map items.get := by
  have whole : items.take count = ((List.finRange items.length).take count).map items.get := by
    rw [List.map_take, List.map_get_finRange]
  rw [whole, List.filter_map]
  rfl

/-- Two cuts that part the kept items alike leave the same of them in front, though the lists have them in other
places. -/
private theorem filter_take_eq {α : Type} {keeps : α → Bool} {first second : List α}
    (place : Fin second.length ≃ Fin first.length) (moved : ∀ index, second.get index = first.get (place index))
    (order : ∀ earlier later, keeps (second.get earlier) = true → keeps (second.get later) = true →
      earlier < later → place earlier < place later)
    {count other : Nat}
    (cut : ∀ index, keeps (second.get index) = true → (index.val < count ↔ (place index).val < other)) :
    (second.take count).filter keeps = (first.take other).filter keeps := by
  have indices : (((List.finRange second.length).take count).filter fun index => keeps (second.get index)).map place =
      ((List.finRange first.length).take other).filter fun index => keeps (first.get index) := by
    have left := (List.pairwise_lt_finRange second.length).sublist (List.take_sublist count _)
    have right := (List.pairwise_lt_finRange first.length).sublist (List.take_sublist other _)
    refine List.Pairwise.eq_of_mem_iff (r := (· < ·)) ?_ (right.filter _) ?_
    · refine List.pairwise_map.mpr ((left.filter _).imp_of_mem ?_)
      intro earlier later isEarlier isLater below
      exact order earlier later (List.mem_filter.mp isEarlier).2 (List.mem_filter.mp isLater).2 below
    · intro index
      simp only [List.mem_map, List.mem_filter, mem_take_finRange]
      constructor
      · rintro ⟨source, ⟨below, kept⟩, rfl⟩
        exact ⟨(cut source kept).mp below, moved source ▸ kept⟩
      · rintro ⟨below, kept⟩
        have same := moved (place.symm index)
        rw [place.apply_symm_apply] at same
        have keptToo : keeps (second.get (place.symm index)) = true := same ▸ kept
        refine ⟨place.symm index, ⟨(cut _ keptToo).mpr ?_, keptToo⟩, place.apply_symm_apply index⟩
        rwa [place.apply_symm_apply]
  rw [filter_take keeps second, filter_take keeps first, ← indices, List.map_map]
  refine List.map_congr_left ?_
  intro index _
  exact moved index

namespace Selection.Rearranges

variable {selection : Selection} {kind : StreamKind} {first second : List Column}
  {place : Fin second.length ≃ Fin first.length}

theorem filter (rearranges : selection.Rearranges first second place) (kind : StreamKind) :
    second.filter (selection.routes kind) = first.filter (selection.routes kind) := by
  have whole := @filter_take_eq _ (selection.routes kind) first second place rearranges.moved (rearranges.order kind)
    second.length first.length (fun index _ => ⟨fun _ => (place index).isLt, fun _ => index.isLt⟩)
  rwa [List.take_length, List.take_length] at whole

end Selection.Rearranges

namespace RowBuilder

/-- The builder after all columns were pushed, whatever came of each. -/
def pushEach (builder : RowBuilder) (columns : List Column) : RowBuilder := builder.feedAll (columns.map .push)

/-- What is said to one of the columns when they are pushed one after the other. -/
def verdict (builder : RowBuilder) (columns : List Column) (index : Fin columns.length) : Except Error Unit :=
  ((builder.pushEach (columns.take index)).push (columns.get index)).1

theorem pushEach_cons (builder : RowBuilder) (column : Column) (columns : List Column) :
    builder.pushEach (column :: columns) = (builder.push column).2.pushEach columns := rfl

/-- The builders differ in their other stream at most. -/
structure SameStream (kind : StreamKind) (first second : RowBuilder) : Prop where
  frame : second = { first with values := second.values, counts := second.counts }
  stream : second.stream kind = first.stream kind

variable {kind : StreamKind} {first second third builder : RowBuilder} {column : Column} {key : RowKey}

namespace SameStream

theorem refl (kind : StreamKind) (builder : RowBuilder) : SameStream kind builder builder := ⟨rfl, rfl⟩

theorem symm (same : SameStream kind first second) : SameStream kind second first := by
  refine ⟨?_, same.stream.symm⟩
  rw [same.frame]

theorem trans (left : SameStream kind first second) (right : SameStream kind second third) :
    SameStream kind first third := by
  refine ⟨?_, right.stream.trans left.stream⟩
  rw [right.frame, left.frame]

theorem selection (same : SameStream kind first second) : second.selection = first.selection := by rw [same.frame]

theorem fixDuplicates (same : SameStream kind first second) : second.fixDuplicates = first.fixDuplicates := by
  rw [same.frame]

theorem key? (same : SameStream kind first second) : second.key? = first.key? := by rw [same.frame]

theorem setStream (same : SameStream kind first second) (stream : StreamBuilder) :
    SameStream kind (first.setStream kind stream) (second.setStream kind stream) := by
  rw [same.frame]
  cases kind <;> exact ⟨rfl, rfl⟩

theorem eq (values : SameStream .value first second) (counts : SameStream .count first second) : second = first := by
  have sameValues : second.values = first.values := values.stream
  have sameCounts : second.counts = first.counts := counts.stream
  rw [values.frame, sameValues, sameCounts]

/-- A column of the stream is answered alike, and leaves the streams alike. -/
theorem append (same : SameStream kind first second) (routed : first.selection.routes kind column = true) :
    (second.append column).1 = (first.append column).1 ∧
      SameStream kind (first.append column).2 (second.append column).2 := by
  rw [append_eq, append_eq, same.selection, same.fixDuplicates]
  cases made : first.selection.entry column with
  | error cause => exact ⟨rfl, same⟩
  | ok result =>
    obtain ⟨stream, entry⟩ := result
    rw [Selection.routes_of_entry made, decide_eq_true_eq] at routed
    subst stream
    simp only [same.stream, true_and]
    exact same.setStream _

end SameStream

section Held
variable {columns others : List Column}

end Held

/-! A new builder takes its key from the first column, whatever becomes of that column's cell. -/

section Fresh
variable {query : Query} {settings : Settings} {start : RowBuilder} {rowKey : Bytes} {columns : List Column}

theorem push_short {cause : Error} (fresh : start.key? = none)
    (short : RowKey.ofBytes start.layout column.rowKey = .error cause) :
    start.push column = (.error cause, start) := by
  simp only [push, fresh, setFirst, short]

end Fresh

end RowBuilder

end Rollup
