import Rollup.Proofs.Rescans

/-! How far the streams of a row diverge: the number of strays in both. A cursor that goes back only to words of its own
has counted them all when it first comes to an end, and counts none of them again. -/

namespace Rollup

namespace Row

/-- The field has no partner in the other stream and lies below the largest offset there. -/
def strays (row : Row) (kind : StreamKind) (field : Field) : Bool :=
  let others := (row.fields kind.other).map Field.offset
  !others.contains field.offset && others.max?.any fun largest => field.offset < largest

def divergence (row : Row) : Nat :=
  (row.fields .value).countP (row.strays .value) + (row.fields .count).countP (row.strays .count)

variable {row : Row} {kind : StreamKind} {field : Field} {start : Nat}

private theorem below_max?_iff {offsets : List Nat} {offset : Nat} :
    (offsets.max?.any fun largest => offset < largest) = true ↔ ∃ later ∈ offsets, offset < later := by
  cases largest : offsets.max? with
  | none => simp [List.max?_eq_none_iff.mp largest]
  | some last =>
    obtain ⟨present, above⟩ := List.max?_eq_some_iff.mp largest
    rw [Option.any_some, decide_eq_true_eq]
    constructor
    · intro below
      exact ⟨last, present, below⟩
    · rintro ⟨later, member, below⟩
      exact Nat.lt_of_lt_of_le below (above later member)

theorem strays_iff :
    row.strays kind field = true ↔ (∀ partner ∈ row.fields kind.other, partner.offset ≠ field.offset) ∧
      ∃ later ∈ row.fields kind.other, field.offset < later.offset := by
  rw [strays, Bool.and_eq_true, below_max?_iff]
  simp only [Bool.not_eq_true', ← Bool.not_eq_true, List.contains_iff_mem, List.mem_map, not_exists, not_and,
    exists_exists_and_eq_and, ne_eq]

theorem stray_iff :
    row.Stray kind start ↔ ∃ index ∈ (row.fields kind).findIdxs (row.strays kind), start = Field.size * index := by
  constructor
  · rintro ⟨front, field, back, fields, rfl, isStray⟩
    refine ⟨front.length, ?_, rfl⟩
    rw [List.mem_findIdxs_iff_exists_getElem_pos, fields]
    exact ⟨by simp, by simpa using strays_iff.mpr isStray⟩
  · rintro ⟨index, member, rfl⟩
    obtain ⟨inside, isStray⟩ := List.mem_findIdxs_iff_exists_getElem_pos.mp member
    refine ⟨(row.fields kind).take index, (row.fields kind)[index], (row.fields kind).drop (index + 1), ?_, ?_,
      strays_iff.mp isStray⟩
    · rw [← List.drop_eq_getElem_cons inside, List.take_append_drop]
    · rw [List.length_take, Nat.min_eq_left (Nat.le_of_lt inside)]

theorem card_strays {starts : List Nat} (exactly : ∀ start, start ∈ starts ↔ row.Stray kind start) :
    starts.toFinset.card = (row.fields kind).countP (row.strays kind) := by
  have same : starts.toFinset =
      (((row.fields kind).findIdxs (row.strays kind)).map (Field.size * ·)).toFinset := by
    ext start
    rw [List.mem_toFinset, List.mem_toFinset, exactly, stray_iff, List.mem_map]
    simp only [eq_comm]
  have injective : Function.Injective (Field.size * ·) := fun _ _ => Nat.eq_of_mul_eq_mul_left (by decide)
  rw [same, List.toFinset_card_of_nodup (List.nodup_findIdxs.map injective), List.length_map, List.length_findIdxs]

end Row

theorem Place.pending_eq_nil_of_next?_none {place : Place} {counts : Gap} (held : place.counts? = some counts)
    (ended : place.next? = none) : place.values.pending = [] ∨ counts.pending = [] := by
  obtain ⟨⟨passed, pending⟩, counts?⟩ := place
  obtain ⟨countsPassed, countsPending⟩ := counts
  cases held
  cases pending with
  | nil => exact .inl rfl
  | cons value values =>
    cases countsPending with
    | nil => exact .inr rfl
    | cons count counts => cases ended

namespace Cursor

variable {row : Row} {cursor : Cursor} {place : Place} {kind : StreamKind} {start : Nat}

/-- When one stream of a row has ended, no cell still to come in either lies before a cell of the other. -/
theorem Stands.not_before_of_ended (stands : Stands row cursor place) (ended : cursor.ready row = false)
    {gap others : Gap} (held : place.gap? kind = some gap) (othersHeld : place.gap? kind.other = some others)
    {cell later : Cell} (pending : cell ∈ gap.pending) (present : later ∈ others.cells) :
    ¬ cell.offset < later.offset := by
  have ended : place.next? = none := by simpa [stands.ready] using ended
  have values := stands.sound.values
  cases kind with
  | value =>
    have othersHeld : place.counts? = some others := othersHeld
    cases held
    rcases Place.pending_eq_nil_of_next?_none othersHeld ended with empty | empty
    · exact absurd (empty ▸ pending) List.not_mem_nil
    · rw [Gap.cells, empty, List.append_nil] at present
      exact Nat.lt_asymm ((stands.sound.beside others othersHeld).behind_value values pending present)
  | count =>
    have held : place.counts? = some gap := held
    cases othersHeld
    rcases Place.pending_eq_nil_of_next?_none held ended with empty | empty
    · rw [Gap.cells, empty, List.append_nil] at present
      exact Nat.lt_asymm ((stands.sound.beside gap held).ahead_value values present pending)
    · exact absurd (empty ▸ pending) List.not_mem_nil

/-- A cursor that has come to the end of a stream has all strays behind it. -/
theorem Stands.strays_passed (stands : Stands row cursor place) (counted : row.counted = true)
    (ended : cursor.ready row = false) (stray : row.Stray kind start) : start < (cursor.position kind).field := by
  obtain ⟨gap, held⟩ := stands.exists_gap counted kind
  obtain ⟨others, othersHeld⟩ := stands.exists_gap counted kind.other
  obtain ⟨front, field, back, fields, rfl, _, later, isLater, below⟩ := stray
  rw [stands.fields kind held] at fields
  rw [stands.fields kind.other othersHeld] at isLater
  obtain ⟨after, present, rfl⟩ := List.mem_map.mp isLater
  obtain ⟨earlier, rest, cells, rfl, tail⟩ := List.map_eq_append_iff.mp fields
  obtain ⟨cell, rest, rfl, rfl, _⟩ := List.map_eq_cons_iff.mp tail
  by_contra notPassed
  rw [stands.position kind held, Gap.position_field, List.length_map, Nat.not_lt] at notPassed
  have behind : gap.passed.length ≤ earlier.length := Nat.le_of_mul_le_mul_left notPassed (by decide)
  have pending : gap.pending = earlier.drop gap.passed.length ++ cell :: rest := by
    rw [← List.drop_append_of_le_length behind, ← cells, Gap.cells, List.drop_left]
  exact stands.not_before_of_ended ended held othersHeld (by simp [pending]) present below

section Run
variable {cells : List Cell × Option (List Cell)} {operations front : List Operation}

/-- Once the run has come to an end, the cells that it has stepped over are the strays of its row. -/
theorem mem_run_iff (own : OwnTokens row operations) (packs : Packs row cells) (counted : row.counted = true)
    (initial : front <+: operations) (ended : (run row front).1.ready row = false) :
    start ∈ (run row operations).2 kind ↔ row.Stray kind start := by
  refine ⟨run_stray packs operations, ?_⟩
  intro stray
  obtain ⟨place, stands, _⟩ := (run_reachable row front).stands packs
  have covered := own.covered packs counted front initial
  exact run_mono initial (covered.before kind start stray.lone (stands.strays_passed counted ended stray))

theorem run_skipped_of_ended (own : OwnTokens row operations) (packs : Packs row cells) (counted : row.counted = true)
    (initial : front <+: operations) (ended : (run row front).1.ready row = false) :
    (run row operations).1.skipped = row.divergence := by
  have ordered := (own.covered packs counted operations (List.prefix_refl _)).ordered
  rw [(run_tallied row operations).skipped, (History.inOrder_eq_distinct_iff _).mpr ordered, History.distinct,
    Row.card_strays fun _ => mem_run_iff own packs counted initial ended,
    Row.card_strays fun _ => mem_run_iff own packs counted initial ended, Row.divergence]

end Run

/-- From the moment on when a run that goes back only to words of its own has come to an end, asked or not, the cells
counted are the strays of the row. -/
theorem skipped_eq_divergence {row : Row} (frozen : row.Frozen) (counted : row.counted = true)
    {operations : List Operation} (own : OwnTokens row operations) :
    (∀ front, front ++ [.hasNext] <+: operations → ((run row front).1.hasNext row).1 = false →
        (run row operations).1.skipped = row.divergence) ∧
      ∀ front, front <+: operations → (run row front).1.ready row = false →
        (run row operations).1.skipped = row.divergence := by
  obtain ⟨cells, packs⟩ := frozen.packs
  refine ⟨?_, fun front initial ended => run_skipped_of_ended own packs counted initial ended⟩
  intro front initial ended
  refine run_skipped_of_ended own packs counted initial ?_
  rw [run_concat]
  exact ended

/-- Both lone values are counted by the end of a run that goes back twice, and reading on does not count them again. -/
theorem skipped_eq_divergence_sparse :
    Sparse.row.Frozen ∧ Sparse.row.counted = true ∧
      ((run Sparse.row (Sparse.rescan ++ [.next, .next])).1.hasNext Sparse.row).1 = false ∧
      (run Sparse.row (Sparse.rescan ++ [.next, .next, .hasNext, .seek 0, .next])).1.skipped = Sparse.row.divergence ∧
      Sparse.row.divergence = 2 := by
  have own : OwnTokens Sparse.row (Sparse.rescan ++ [.next, .next, .hasNext, .seek 0, .next]) :=
    Sparse.rescan_own.append (by simp)
  have ended : ((run Sparse.row (Sparse.rescan ++ [.next, .next])).1.hasNext Sparse.row).1 = false := by
    decide +kernel
  have initial : Sparse.rescan ++ [.next, .next] ++ [.hasNext] <+:
      Sparse.rescan ++ [.next, .next, .hasNext, .seek 0, .next] := ⟨[.seek 0, .next], rfl⟩
  obtain ⟨asked, _⟩ := skipped_eq_divergence Sparse.frozen rfl own
  exact ⟨Sparse.frozen, rfl, ended, asked _ initial ended, by decide +kernel⟩

end Cursor

end Rollup
