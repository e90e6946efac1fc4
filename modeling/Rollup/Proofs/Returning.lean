import Mathlib.Data.List.Nodup
import Rollup.Proofs.Seeking

/-! A seek to the timestamp of a point goes back to the point if it reads the number in the unit of the row. Small numbers
are read as seconds, so the early points of a row in milliseconds are not found again. Large ones are read as milliseconds,
so a late point of a row in seconds is found again only if the points before it are much earlier. -/

namespace Rollup

namespace Row

theorem toNat_timestamp (row : Row) {offset : Nat} (small : offset ≤ Field.maxOffset) :
    (row.timestamp offset).toNat =
      match row.resolution with
      | .seconds => min (row.instant offset / 1000) Word.largest
      | .milliseconds => min (row.instant offset) Word.largest := by
  have start := Timestamp.toNat_start row.key.baseTime row.granularity.interval.seconds small
  have thousand : (1000 : UInt64).toNat = 1000 := rfl
  unfold timestamp Timestamp.ofBucket instant
  cases row.resolution with
  | seconds =>
    rw [Nat.mul_div_cancel_left _ (by decide)]
    exact start
  | milliseconds =>
    simp only [Word.mul, Word.toNat_cap, thousand] at start ⊢
    rw [start]
    omega

/-- A seek reads the timestamp of the point as an instant that lies behind the earlier points and not behind the point. It
takes numbers below `2 ^ 32` for seconds and all others for milliseconds. -/
def Recalls (row : Row) (point : Point) : Prop :=
  match row.resolution with
  | .milliseconds => point.timestamp = 0 ∨ 0x100000000 ≤ point.timestamp.toNat
  | .seconds => point.timestamp.toNat < 0x100000000 ∨
      ∀ earlier ∈ row.points, earlier.offset < point.offset → row.instant earlier.offset < point.timestamp.toNat

end Row

/-- Where offsets grow, the first point that passes a test is the one that no point of a smaller offset passes before. -/
private theorem find?_eq_some_iff_offset {points : List Point} {point : Point} {test : Point → Bool}
    (increasing : points.Pairwise fun first second => first.offset < second.offset) (member : point ∈ points) :
    points.find? test = some point ↔
      test point = true ∧ ∀ earlier ∈ points, earlier.offset < point.offset → test earlier = false := by
  rw [List.find?_eq_some_iff_append]
  refine and_congr_right fun _ => ⟨?_, ?_⟩
  · rintro ⟨front, back, rfl, failed⟩ earlier isPoint below
    obtain ⟨_, behind, _⟩ := List.pairwise_append.mp increasing
    rcases List.mem_append.mp isPoint with inFront | inBack
    · simpa using failed earlier inFront
    · rcases List.mem_cons.mp inBack with rfl | later
      · omega
      · have above := (List.pairwise_cons.mp behind).1 earlier later
        omega
  · intro failed
    obtain ⟨front, back, rfl⟩ := List.append_of_mem member
    obtain ⟨_, _, across⟩ := List.pairwise_append.mp increasing
    refine ⟨front, back, rfl, ?_⟩
    intro earlier inFront
    simp [failed earlier (List.mem_append_left _ inFront) (across earlier inFront point List.mem_cons_self)]

namespace Gappy

def rowInSeconds : Row := { row with resolution := .seconds }

theorem rowInSeconds_frozen : rowInSeconds.Frozen :=
  ⟨query, { Settings.default with resolution := .seconds }, { start with resolution := .seconds }, feeds, rfl, rfl⟩

end Gappy

namespace Cursor

variable {row : Row} {cursor : Cursor} {place : Place} {cells : List Cell × Option (List Cell)}

theorem head?_drain (row : Row) (cursor : Cursor) : (cursor.drain row).1.head? = (cursor.next row).1 := by
  rw [drain]
  split
  · next ended => rw [ended, List.head?_nil]
  · next read => rw [read, List.head?_cons]

theorem Stands.next_seek (stands : Stands row cursor place) (timestamp : UInt64) :
    ((cursor.seek row timestamp).next row).1 =
      row.points.find? fun point => Timestamp.instant timestamp ≤ row.instant point.offset := by
  rw [← head?_drain, stands.points_seek, ← stands.packs.points, List.head?_filter]

theorem Packs.points_increasing (packs : Packs row cells) :
    row.points.Pairwise fun first second => first.offset < second.offset := by
  rw [packs.points]
  exact List.pairwise_map.mpr (Place.pairs_increasing (Place.sound_start packs.increasing packs.countsIncreasing))

private theorem Packs.toNat_timestamp {point : Point} (packs : Packs row cells) (member : point ∈ row.points) :
    point.timestamp.toNat =
      match row.resolution with
      | .seconds => min (row.instant point.offset / 1000) Word.largest
      | .milliseconds => min (row.instant point.offset) Word.largest := by
  rw [packs.points] at member
  obtain ⟨pair, _, rfl⟩ := List.mem_map.mp member
  exact row.toNat_timestamp pair.1.field.offset_le

/-- Timestamps grow with the offsets, so where no two are the same a point is told from the earlier ones. -/
private theorem Packs.timestamp_lt {point earlier : Point} (packs : Packs row cells)
    (distinct : (row.points.map Point.timestamp).Nodup) (member : point ∈ row.points) (isPoint : earlier ∈ row.points)
    (below : earlier.offset < point.offset) : earlier.timestamp.toNat < point.timestamp.toNat := by
  have number := packs.toNat_timestamp member
  have earlierNumber := packs.toNat_timestamp isPoint
  have before := row.instant_mono (Nat.le_of_lt below)
  have different : earlier.timestamp.toNat ≠ point.timestamp.toNat := by
    intro same
    rw [List.inj_on_of_nodup_map distinct isPoint member (UInt64.toNat_inj.mp same)] at below
    omega
  cases resolution : row.resolution <;> simp only [resolution] at number earlierNumber <;> omega

/-- The unit that is read from the timestamp of a point is the right one, or does no harm, just where the instant that is
asked for lies behind the earlier points and not behind the point. -/
theorem Packs.recalls_iff {point : Point} (packs : Packs row cells)
    (distinct : (row.points.map Point.timestamp).Nodup) (member : point ∈ row.points) :
    row.Recalls point ↔ Timestamp.instant point.timestamp ≤ row.instant point.offset ∧
      ∀ earlier ∈ row.points, earlier.offset < point.offset →
        row.instant earlier.offset < Timestamp.instant point.timestamp := by
  have number := packs.toNat_timestamp member
  have grow {earlier : Point} := @Packs.timestamp_lt row cells point earlier packs distinct member
  have whole (offset : Nat) : row.instant offset % 1000 = 0 := Nat.mul_mod_right _ _
  have pointWhole := whole point.offset
  have zero : point.timestamp = 0 ↔ point.timestamp.toNat = 0 := UInt64.toNat_inj.symm
  unfold Row.Recalls Timestamp.instant
  cases resolution : row.resolution with
  | milliseconds =>
    simp only [resolution, Word.largest, zero] at number ⊢
    constructor
    · intro unit
      refine ⟨by split <;> omega, ?_⟩
      intro earlier isPoint below
      have earlierNumber := packs.toNat_timestamp isPoint
      have less := grow isPoint below
      simp only [resolution, Word.largest] at earlierNumber
      split <;> omega
    · rintro ⟨upTo, _⟩
      split at upTo <;> omega
  | seconds =>
    simp only [resolution, Word.largest] at number ⊢
    constructor
    · intro unit
      refine ⟨by split <;> omega, ?_⟩
      intro earlier isPoint below
      have earlierNumber := packs.toNat_timestamp isPoint
      have earlierWhole := whole earlier.offset
      have less := grow isPoint below
      simp only [resolution, Word.largest] at earlierNumber
      split
      · omega
      · next late => exact unit.resolve_left late earlier isPoint below
    · rintro ⟨_, behind⟩
      by_cases early : point.timestamp.toNat < 0x100000000
      · exact .inl early
      · simp only [early, if_false] at behind
        exact .inr behind

theorem Stands.seek_timestamp_iff {point : Point} (stands : Stands row cursor place)
    (distinct : (row.points.map Point.timestamp).Nodup) (member : point ∈ row.points) :
    ((cursor.seek row point.timestamp).next row).1 = some point ↔ row.Recalls point := by
  rw [stands.next_seek, find?_eq_some_iff_offset stands.packs.points_increasing member,
    stands.packs.recalls_iff distinct member]
  simp only [decide_eq_true_eq, decide_eq_false_iff_not, Nat.not_le]

/-- Wherever a cursor of a row with distinct timestamps stands, a seek to the timestamp of a point goes back to the point
just if the row recalls it. -/
theorem seek_timestamp_returns_iff (frozen : row.Frozen) (distinct : (row.points.map Point.timestamp).Nodup)
    (reached : Reachable row cursor) {point : Point} (member : point ∈ row.points) :
    (((cursor.seek row point.timestamp).next row).1 = some point ↔ row.Recalls point) ∧
      (((cursor.seek row point.timestamp).peek row).1 = .ok point.timestamp ↔ row.Recalls point) := by
  obtain ⟨cells, packs⟩ := frozen.packs
  obtain ⟨place, stands, _⟩ := reached.stands packs
  have returns := stands.seek_timestamp_iff distinct member
  refine ⟨returns, ?_⟩
  rw [(stands.seek point.timestamp).peek_ok_iff, ← returns]
  constructor
  · rintro ⟨other, read, same⟩
    rw [stands.next_seek] at read ⊢
    rw [read, List.inj_on_of_nodup_map distinct (List.mem_of_find?_eq_some read) member same]
  · intro read
    exact ⟨point, read, rfl⟩

/-- In seconds the last point is found again, by a cursor that was sent behind the row. -/
theorem seek_timestamp_returns_in_seconds :
    Gappy.rowInSeconds.Frozen ∧ (Gappy.rowInSeconds.points.map Point.timestamp).Nodup ∧
      Reachable Gappy.rowInSeconds ((start Gappy.rowInSeconds).seek Gappy.rowInSeconds 3600) ∧
      ⟨300, 5, .integer 9, some (.integer 6)⟩ ∈ Gappy.rowInSeconds.points ∧
      ((((start Gappy.rowInSeconds).seek Gappy.rowInSeconds 3600).seek Gappy.rowInSeconds 300).next
        Gappy.rowInSeconds).1 = some ⟨300, 5, .integer 9, some (.integer 6)⟩ ∧
      ((((start Gappy.rowInSeconds).seek Gappy.rowInSeconds 3600).seek Gappy.rowInSeconds 300).peek
        Gappy.rowInSeconds).1 = .ok 300 := by
  have distinct : (Gappy.rowInSeconds.points.map Point.timestamp).Nodup := by decide +kernel
  have member : ⟨300, 5, .integer 9, some (.integer 6)⟩ ∈ Gappy.rowInSeconds.points := by decide +kernel
  have reached : Reachable Gappy.rowInSeconds ((start Gappy.rowInSeconds).seek Gappy.rowInSeconds 3600) :=
    .perform (.seek 3600) .start
  have recalls : Gappy.rowInSeconds.Recalls ⟨300, 5, .integer 9, some (.integer 6)⟩ := .inl (by decide)
  obtain ⟨read, peeked⟩ := seek_timestamp_returns_iff Gappy.rowInSeconds_frozen distinct reached member
  exact ⟨Gappy.rowInSeconds_frozen, distinct, reached, member, read.mpr recalls, peeked.mpr recalls⟩

/-- Three minutes after the epoch in milliseconds are taken for two days in seconds, and the seek ends behind the row. -/
theorem seek_overshoots_early_point :
    Gappy.row.Frozen ∧ (Gappy.row.points.map Point.timestamp).Nodup ∧ Reachable Gappy.row (start Gappy.row) ∧
      ⟨180000, 3, .integer 256, some (.integer 5)⟩ ∈ Gappy.row.points ∧
      (((start Gappy.row).seek Gappy.row 180000).next Gappy.row).1 ≠
        some ⟨180000, 3, .integer 256, some (.integer 5)⟩ ∧
      (((start Gappy.row).seek Gappy.row 180000).peek Gappy.row).1 ≠ .ok 180000 :=
  ⟨Gappy.frozen, by decide +kernel, .start, by decide +kernel, by decide +kernel, by decide +kernel⟩

end Cursor

end Rollup
