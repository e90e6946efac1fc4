import Rollup.Proofs.InnerJoin

/-! Words that a cursor can be put back to. They are the boundaries between the value cells of the row and no others; a
word of any other kind is refused and moves nothing. Past a boundary the points with later offsets are still to come. -/

namespace Rollup

namespace Gap

/-- The cell lies behind the last one that was passed. -/
def isAhead (gap : Gap) (cell : Cell) : Bool := gap.passed.getLast?.all fun last => last.offset < cell.offset

theorem filter_isAhead {gap : Gap} (increasing : Increasing gap.cells) : gap.cells.filter gap.isAhead = gap.pending := by
  obtain ⟨passed, pending⟩ := gap
  rcases List.eq_nil_or_concat passed with rfl | ⟨front, last, rfl⟩
  · simp [cells, isAhead]
  · simp only [cells, List.concat_eq_append, List.append_assoc, List.singleton_append] at increasing ⊢
    obtain ⟨earlier, later⟩ := increasing.split
    have isAhead_iff (cell : Cell) : isAhead ⟨front ++ [last], pending⟩ cell = decide (last.offset < cell.offset) := by
      rw [isAhead, List.getLast?_concat, Option.all_some]
    have behind : front.filter (isAhead ⟨front ++ [last], pending⟩) = [] := by
      refine List.filter_eq_nil_iff.mpr ?_
      intro cell member
      have below := earlier cell member
      rw [isAhead_iff, decide_eq_true_eq]
      omega
    have ahead : pending.filter (isAhead ⟨front ++ [last], pending⟩) = pending := by
      refine List.filter_eq_self.mpr ?_
      intro cell member
      rw [isAhead_iff]
      exact decide_eq_true (later cell member)
    rw [List.filter_append, behind, List.nil_append, List.filter_cons_of_neg (by simp [isAhead_iff]), ahead]

end Gap

theorem Merge.joined_filter (keeps : Cell → Bool) (values counts : List Cell) :
    (joined values counts).filter (fun pair => keeps pair.1) = joined (values.filter keeps) counts := by
  induction values with
  | nil => rfl
  | cons value values ih =>
    unfold joined at ih ⊢
    rw [List.filterMap_cons, List.filter_cons]
    cases found : counts.find? fun count => count.offset = value.offset with
    | none => by_cases kept : keeps value = true <;> simp [kept, found, ih]
    | some count => by_cases kept : keeps value = true <;> simp [kept, found, ih]

/-- Counts before all of the values find no partner. -/
theorem Merge.joined_behind {values : List Cell} (front back : List Cell)
    (behind : ∀ value ∈ values, ∀ count ∈ front, count.offset < value.offset) :
    joined values (front ++ back) = joined values back := by
  induction front with
  | nil => rfl
  | cons count front ih =>
    have first : ∀ value ∈ values, count.offset < value.offset := by
      intro value member
      exact behind value member count List.mem_cons_self
    rw [List.cons_append, joined_pass_count first]
    exact ih fun value member other inFront => behind value member other (List.mem_cons_of_mem _ inFront)

/-- The pairs still to come are those of the whole row behind the last value that was passed. -/
theorem Place.pairs_eq_filter {place : Place} (sound : place.Sound) :
    place.pairs = (start place.cells.1 place.cells.2).pairs.filter fun pair => place.values.isAhead pair.1 := by
  have pending := Gap.filter_isAhead sound.values
  cases held : place.counts? with
  | none =>
    simp only [pairs, start, cells, held, Option.map_none, List.filter_map, Function.comp_def, pending]
  | some counts =>
    have behind : ∀ value ∈ place.values.pending, ∀ count ∈ counts.passed, count.offset < value.offset := by
      intro value isPending count passed
      exact (sound.beside counts held).behind_value sound.values isPending passed
    simp only [pairs, start, cells, held, Option.map_some, List.filter_map, Function.comp_def]
    rw [Merge.joined_filter place.values.isAhead, pending, Gap.cells, Merge.joined_behind _ _ behind]

/-- Only the first thing that is wrong with a word is reported. -/
theorem CellStream.Refusal.unique {stream : CellStream} {token : UInt64} {first second : ReadError}
    (left : stream.Refusal token first) (right : stream.Refusal token second) : first = second := by
  cases left with
  | fieldOutside outside =>
    cases right with
    | fieldOutside => rfl
    | payloadOutside even inside => omega
    | misaligned inside field =>
      unfold size Field.size at *
      omega
  | payloadOutside even inside outside =>
    cases right with
    | fieldOutside => omega
    | payloadOutside => rfl
    | misaligned _ _ fits => omega
  | misaligned inside field fits =>
    cases right with
    | fieldOutside =>
      unfold size Field.size at *
      omega
    | payloadOutside => omega
    | misaligned _ fieldToo =>
      rw [Nat.eq_of_mul_eq_mul_left (by decide) (field.symm.trans fieldToo)]

namespace Cursor

variable {row : Row} {cursor : Cursor} {place : Place} {token : UInt64}

theorem save_of_halves (field : token.toNat / half = cursor.values.field)
    (payload : token.toNat % half = cursor.values.payload) : cursor.save = token := by
  have whole : cursor.values.field * half + cursor.values.payload % half = token.toNat := by
    rw [← field, ← payload, Nat.mod_mod]
    exact Nat.div_add_mod' _ _
  rw [save, whole]
  exact UInt64.ofNat_toNat

theorem Stands.restore_error_iff (stands : Stands row cursor place) {cause : ReadError} :
    (cursor.restore row token).1 = .error cause ↔ row.values.Refusal token cause := by
  have restored := restore_restored row token cursor
  generalize cursor.restore row token = outcome at restored ⊢
  cases restored with
  | refused refusal =>
    constructor
    · rintro ⟨⟩
      exact refusal
    · intro other
      rw [refusal.unique other]
  | taken boundary =>
    constructor
    · rintro ⟨⟩
    · intro refusal
      rw [stands.values] at boundary refusal
      exact absurd refusal boundary.not_refusal

/-- Behind a boundary the points of the whole row are left whose offsets lie past the last value that was passed. -/
theorem Stands.restore_boundary (stands : Stands row cursor place) {passed : Nat}
    (boundary : row.values.Boundary passed token) :
    (cursor.restore row token).1 = .ok () ∧ (cursor.restore row token).2.save = token ∧
      Yields row (cursor.restore row token).2 (row.points.filter fun point =>
        (row.values.fieldList.take passed).getLast?.all fun last => last.offset < point.offset) := by
  have packs := stands.packs
  rw [stands.values] at boundary
  obtain ⟨gap, cells, rfl, field, payload⟩ := Gap.exists_of_boundary boundary
  obtain ⟨taken, moved⟩ := stands.restore_position cells field payload
  refine ⟨taken, ?_, ?_⟩
  · refine save_of_halves ?_ ?_
    · rw [moved.valuesAt]
      exact field
    · rw [moved.valuesAt]
      exact payload
  · have passed : row.values.fieldList.take gap.passed.length = gap.passed.map Cell.field := by
      rw [stands.values, ← cells, gap.take_fieldList]
    have ahead : (fun pair => gap.isAhead pair.1) = (fun point : Point =>
        (gap.passed.map Cell.field).getLast?.all fun last => last.offset < point.offset) ∘ row.point := by
      funext pair
      simp only [Gap.isAhead, List.getLast?_map, Option.all_map, Function.comp_apply, Row.point]
      rfl
    have yields := yields_drain row (cursor.restore row token).2
    have behind : (Place.resume gap place.cells.2).values = gap := rfl
    rw [moved.drain, Place.pairs_eq_filter moved.sound, Place.cells_resume, cells, behind, ahead, ← List.filter_map,
      ← packs.points] at yields
    rwa [passed]

/-- Wherever a cursor of a row stands, it takes the boundaries between value cells and no other word. A word that is taken
is saved again; the points that lie past the last value behind it are then to come, and none is current. A word that is
refused leaves the cursor as it was, and the first thing wrong with the word is told. -/
theorem restore_takes_boundaries (frozen : row.Frozen) (reached : Reachable row cursor) (token : UInt64) :
    ((cursor.restore row token).1 = .ok () ↔ ∃ passed, row.values.Boundary passed token) ∧
      (∀ passed, row.values.Boundary passed token →
        (cursor.restore row token).2.save = token ∧ (cursor.restore row token).2.current? = none ∧
          Yields row (cursor.restore row token).2 (row.points.filter fun point =>
            (row.values.fieldList.take passed).getLast?.all fun last => last.offset < point.offset)) ∧
      ∀ cause, ((cursor.restore row token).1 = .error cause ↔ row.values.Refusal token cause) ∧
        ((cursor.restore row token).1 = .error cause → (cursor.restore row token).2 = cursor) := by
  obtain ⟨cells, packs⟩ := frozen.packs
  obtain ⟨place, stands, _⟩ := reached.stands packs
  refine ⟨⟨?_, ?_⟩, ?_, ?_⟩
  · intro taken
    obtain ⟨gap, cells, field, payload⟩ := stands.restore_ok taken
    refine ⟨gap.passed.length, ?_⟩
    rw [stands.values, ← cells]
    exact Gap.boundary field payload
  · rintro ⟨passed, boundary⟩
    exact (stands.restore_boundary boundary).1
  · intro passed boundary
    obtain ⟨taken, saved, yields⟩ := stands.restore_boundary boundary
    exact ⟨saved, current?_of_restored taken, yields⟩
  · intro cause
    exact ⟨stands.restore_error_iff, restore_error⟩

/-- The boundary behind the lone value at the offset 1, and a word that ends inside a payload. The cursor was sent to the
end before. -/
theorem restore_takes_boundaries_gappy :
    Gappy.row.Frozen ∧ Reachable Gappy.row ((start Gappy.row).seek Gappy.row 3600) ∧
      Gappy.row.values.Boundary 1 8589934593 ∧
      (((start Gappy.row).seek Gappy.row 3600).restore Gappy.row 8589934593).1 = .ok () ∧
      Yields Gappy.row (((start Gappy.row).seek Gappy.row 3600).restore Gappy.row 8589934593).2
        [⟨180000, 3, .integer 256, some (.integer 5)⟩, ⟨300000, 5, .integer 9, some (.integer 6)⟩] ∧
      Gappy.row.values.Refusal 17179869186 (.misaligned 4 2 3) ∧
      (((start Gappy.row).seek Gappy.row 3600).restore Gappy.row 17179869186).2 =
        (start Gappy.row).seek Gappy.row 3600 := by
  have reached : Reachable Gappy.row ((start Gappy.row).seek Gappy.row 3600) := .perform (.seek 3600) .start
  have boundary : Gappy.row.values.Boundary 1 8589934593 := ⟨by decide, by decide, by decide⟩
  have refusal : Gappy.row.values.Refusal 17179869186 (.misaligned 4 2 3) :=
    @CellStream.Refusal.misaligned Gappy.row.values 17179869186 2 (by decide) (by decide) (by decide) (by decide)
  obtain ⟨taken, moved, _⟩ := restore_takes_boundaries Gappy.frozen reached 8589934593
  obtain ⟨_, _, refused⟩ := restore_takes_boundaries Gappy.frozen reached 17179869186
  obtain ⟨_, _, yields⟩ := moved 1 boundary
  have left : (Gappy.row.points.filter fun point =>
        (Gappy.row.values.fieldList.take 1).getLast?.all fun last => last.offset < point.offset) =
      [⟨180000, 3, .integer 256, some (.integer 5)⟩, ⟨300000, 5, .integer 9, some (.integer 6)⟩] := by decide +kernel
  rw [left] at yields
  exact ⟨Gappy.frozen, reached, boundary, taken.mpr ⟨1, boundary⟩, yields, refusal,
    (refused _).2 ((refused _).1.mpr refusal)⟩

end Cursor

end Rollup
