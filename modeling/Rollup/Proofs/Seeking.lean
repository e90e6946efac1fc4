import Rollup.Proofs.InnerJoin

/-! A seek compares saturated timestamps in the resolution of its row. It stops where exact instants would
stop it: at the first point at or after the instant asked for, whatever came before. -/

namespace Rollup

namespace Timestamp

/-- The milliseconds that a timestamp stands for; below `2 ^ 32` it counts seconds. -/
def instant (timestamp : UInt64) : Nat :=
  if timestamp.toNat < 0x100000000 then 1000 * timestamp.toNat else timestamp.toNat

theorem toNat_start (base interval : UInt64) {offset : Nat} (small : offset ≤ Field.maxOffset) :
    (Word.add base (Word.mul (UInt64.ofNat offset) interval)).toNat =
      min (base.toNat + offset * interval.toNat) Word.largest := by
  unfold Field.maxOffset at small
  have same : (UInt64.ofNat offset).toNat = offset := by
    rw [UInt64.toNat_ofNat']
    omega
  rw [Word.add, Word.mul, Word.toNat_cap, Word.toNat_cap, same]
  omega

/-- No step of either side that saturates changes how they compare. -/
theorem ofBucket_lt_normalize_iff (base interval : UInt64) {offset : Nat} (small : offset ≤ Field.maxOffset)
    (resolution : Resolution) (timestamp : UInt64) :
    ofBucket base interval offset resolution < normalize timestamp resolution ↔
      1000 * (base.toNat + offset * interval.toNat) < instant timestamp := by
  have start := toNat_start base interval small
  have bound := timestamp.toNat_lt
  rw [UInt64.lt_iff_toNat_lt]
  unfold ofBucket normalize inSeconds instant
  generalize Word.add base (Word.mul (UInt64.ofNat offset) interval) = opened at start ⊢
  generalize offset * interval.toNat = passed at start ⊢
  unfold Word.largest at start
  cases resolution with
  | seconds =>
    by_cases early : timestamp.toNat < 0x100000000
    · simp only [early, decide_true, if_true, start]
      omega
    · simp only [early, decide_false, if_false, start, UInt64.toNat_ofNat']
      omega
  | milliseconds =>
    have thousand : (1000 : UInt64).toNat = 1000 := rfl
    by_cases early : timestamp.toNat < 0x100000000
    · simp only [early, decide_true, if_true, Word.mul, Word.toNat_cap, thousand, start, Word.largest]
      omega
    · simp only [early, decide_false, if_false, Word.mul, Word.toNat_cap, thousand, start, Word.largest]
      omega

end Timestamp

/-- The milliseconds at which a bucket starts. -/
def Row.instant (row : Row) (offset : Nat) : Nat :=
  1000 * (row.key.baseTime.toNat + offset * row.granularity.interval.seconds.toNat)

theorem Row.timestamp_lt_iff (row : Row) {offset : Nat} (small : offset ≤ Field.maxOffset) (timestamp : UInt64) :
    row.timestamp offset < Timestamp.normalize timestamp row.resolution ↔
      row.instant offset < Timestamp.instant timestamp :=
  Timestamp.ofBucket_lt_normalize_iff _ _ small _ _

theorem Row.instant_mono (row : Row) {first second : Nat} (below : first ≤ second) :
    row.instant first ≤ row.instant second := by
  have product := Nat.mul_le_mul_right row.granularity.interval.seconds.toNat below
  unfold Row.instant
  omega

namespace Place

theorem pairs_increasing {place : Place} (sound : place.Sound) :
    place.pairs.Pairwise fun first second => first.1.offset < second.1.offset := by
  unfold pairs
  split
  · exact List.pairwise_map.mpr sound.values.pending
  · next counts _ => exact List.pairwise_map.mpr (Merge.joined_increasing sound.values.pending counts.pending)

theorem pairs_skip (early : Cell → Bool) {place : Place} (sound : place.Sound) :
    (place.skip early).pairs = place.pairs.dropWhile fun pair => early pair.1 := by
  fun_induction skip early place with
  | case1 place ended =>
    have empty := pairs_of_next?_none ended
    rw [empty, ← pairs_sync sound, empty, List.dropWhile_nil]
  | case2 place pair after taken isEarly ih =>
    obtain ⟨first, kept⟩ := sound.next taken
    rw [first, ih kept, List.dropWhile_cons, if_pos isEarly]
  | case3 place pair after taken late =>
    rw [pairs_sync sound, (sound.next taken).1, List.dropWhile_cons, if_neg late]

end Place

private theorem dropWhile_eq_filter {α : Type} {ordered : α → α → Prop} {early : α → Bool} {items : List α}
    (sorted : items.Pairwise ordered)
    (closed : ∀ first second, ordered first second → early second = true → early first = true) :
    items.dropWhile early = items.filter fun item => !early item := by
  induction items with
  | nil => rfl
  | cons item items ih =>
    obtain ⟨later, rest⟩ := List.pairwise_cons.mp sorted
    rw [List.dropWhile_cons]
    split
    · next isEarly => rw [ih rest, List.filter_cons_of_neg (by simp [isEarly])]
    · next late =>
      refine (List.filter_eq_self.mpr ?_).symm
      intro other member
      rw [Bool.not_eq_true', Bool.eq_false_iff]
      intro otherEarly
      rcases List.mem_cons.mp member with rfl | behind
      · exact late otherEarly
      · exact late (closed item other (later other behind) otherEarly)

/-- What a point says apart from its timestamp. -/
def Point.reading (point : Point) : Nat × Value × Option Value := (point.offset, point.value, point.count?)

namespace Cursor

variable {row : Row} {cursor : Cursor} {place : Place}

theorem Stands.points_seek (stands : Stands row cursor place) (timestamp : UInt64) :
    ((cursor.seek row timestamp).drain row).1 =
      ((Place.start place.cells.1 place.cells.2).pairs.map row.point).filter fun point =>
        Timestamp.instant timestamp ≤ row.instant point.offset := by
  have packs := stands.packs
  have sound := Place.sound_start packs.increasing packs.countsIncreasing
  rw [(stands.seek timestamp).drain, Place.pairs_skip _ sound,
    dropWhile_eq_filter (Place.pairs_increasing sound), List.filter_map]
  · congr 1
    apply List.filter_congr
    intro pair _
    have same := row.timestamp_lt_iff pair.1.field.offset_le timestamp
    rw [Bool.eq_iff_iff]
    simp only [Function.comp_apply, Row.point, Cell.offset, same, Bool.not_eq_true', decide_eq_false_iff_not,
      Nat.not_lt]
    exact decide_eq_true_iff.symm
  · intro first second below early
    have same (cell : Cell) := row.timestamp_lt_iff cell.field.offset_le timestamp
    simp only [Cell.offset, same, decide_eq_true_eq] at below early ⊢
    exact Nat.lt_of_le_of_lt (row.instant_mono (Nat.le_of_lt below)) early

/-- Wherever a cursor of a row stands, a seek leaves exactly those points of the whole row to be read that start at or
after the instant asked for. Any cursor of the same row in any resolution is then left with the same readings. -/
theorem seek_yields_from_instant (frozen : row.Frozen) (reached : Reachable row cursor) (timestamp : UInt64) :
    (Yields row (cursor.seek row timestamp)
        (row.points.filter fun point => Timestamp.instant timestamp ≤ row.instant point.offset) ∧
      (cursor.seek row timestamp).current? = none) ∧
      ∀ resolution other, Reachable { row with resolution } other →
        ∃ points, Yields { row with resolution } (other.seek { row with resolution } timestamp) points ∧
          points.map Point.reading =
            (row.points.filter fun point => Timestamp.instant timestamp ≤ row.instant point.offset).map
              Point.reading := by
  obtain ⟨cells, packs⟩ := frozen.packs
  obtain ⟨place, stands, rfl⟩ := reached.stands packs
  refine ⟨⟨?_, rfl⟩, ?_⟩
  · rw [packs.points, ← stands.points_seek timestamp]
    exact yields_drain row _
  · intro resolution other otherReached
    have otherPacks : Packs { row with resolution } place.cells :=
      ⟨packs.values, packs.counts, packs.increasing, packs.countsIncreasing⟩
    obtain ⟨otherPlace, otherStands, same⟩ := otherReached.stands otherPacks
    refine ⟨_, yields_drain _ _, ?_⟩
    rw [otherStands.points_seek timestamp, same, packs.points, List.filter_map, List.filter_map, List.map_map,
      List.map_map]
    rfl

/-- One second past the first point, from behind it. -/
theorem seek_yields_from_instant_gappy :
    Gappy.row.Frozen ∧ Reachable Gappy.row ((start Gappy.row).next Gappy.row).2 ∧
      Yields Gappy.row (((start Gappy.row).next Gappy.row).2.seek Gappy.row 181)
        [⟨300000, 5, .integer 9, some (.integer 6)⟩] ∧
      (((start Gappy.row).next Gappy.row).2.seek Gappy.row 181).current? = none := by
  have reached : Reachable Gappy.row ((start Gappy.row).next Gappy.row).2 := .perform .next .start
  obtain ⟨⟨yields, current⟩, _⟩ := seek_yields_from_instant Gappy.frozen reached 181
  have left : (Gappy.row.points.filter fun point => Timestamp.instant 181 ≤ Gappy.row.instant point.offset) =
      [⟨300000, 5, .integer 9, some (.integer 6)⟩] := by decide +kernel
  rw [left] at yields
  exact ⟨Gappy.frozen, reached, yields, current⟩

end Cursor

end Rollup
