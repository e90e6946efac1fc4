import Mathlib.Data.List.Pairwise
import Rollup.Proofs.Buckets
import Rollup.Proofs.Returning

/-! The timestamp of a point is the exact start of its bucket, up to the largest word. Every bucket takes some time, so
timestamps grow along a row until they get to that word, and only there are two of them the same. -/

namespace Rollup

theorem Granularity.interval_pos {granularity : Granularity} (valid : granularity.validate = .ok ()) :
    0 < granularity.interval.seconds.toNat :=
  (validate_ok_iff.mp valid).wide

namespace RowBuilder

variable {query : Query} {settings : Settings} {start builder : RowBuilder} {row : Row}

theorem granularity_create (created : create query settings = .ok start) : start.granularity.validate = .ok () := by
  unfold create at created
  split at created
  · cases created
  · next valid =>
    repeat' split at created
    all_goals cases created
    exact valid

theorem granularity_freeze (frozen : builder.freeze = .ok row) : row.granularity = builder.granularity := by
  unfold freeze at frozen
  split at frozen <;> cases frozen
  rfl

end RowBuilder

/-- A builder is made for an accepted granularity and keeps it, so the buckets of every row take some time. -/
theorem Row.Frozen.interval_pos {row : Row} (frozen : row.Frozen) : 0 < row.granularity.interval.seconds.toNat := by
  obtain ⟨query, settings, start, feeds, created, kept⟩ := frozen
  have same : row.granularity = start.granularity := by
    rw [RowBuilder.granularity_freeze kept, (RowBuilder.feedAll_holds created feeds).frame]
  rw [same]
  exact Granularity.interval_pos (RowBuilder.granularity_create created)

def Resolution.perSecond : Resolution → Nat
  | seconds => 1
  | milliseconds => 1000

namespace Row

variable {row : Row} {first second : Nat}

/-- The start of a bucket in the resolution of its row, whether or not that is a word. -/
def exactStart (row : Row) (offset : Nat) : Nat :=
  (row.key.baseTime.toNat + offset * row.granularity.interval.seconds.toNat) * row.resolution.perSecond

theorem timestamp_eq_min (row : Row) {offset : Nat} (small : offset ≤ Field.maxOffset) :
    (row.timestamp offset).toNat = min (row.exactStart offset) Word.largest := by
  rw [row.toNat_timestamp small]
  unfold exactStart instant Resolution.perSecond
  cases row.resolution <;> simp only <;> omega

theorem exactStart_lt (wide : 0 < row.granularity.interval.seconds.toNat) (below : first < second) :
    row.exactStart first < row.exactStart second := by
  have starts := Nat.mul_lt_mul_of_pos_right below wide
  unfold exactStart Resolution.perSecond
  cases row.resolution <;> simp only <;> omega

end Row

/-- The timestamps differ, or are both the largest word. -/
def Point.ToldApart (first second : Point) : Prop :=
  first.timestamp = second.timestamp → first.timestamp.toNat = Word.largest

instance : Std.Symm Point.ToldApart := ⟨fun _ _ apart same => same ▸ apart same.symm⟩

/-- Timestamps are exact as far as words go, never fall, and tell points apart unless they are capped. -/
structure Row.Chronological (row : Row) (points : List Point) : Prop where
  starts : ∀ point ∈ points, point.timestamp.toNat = min (row.exactStart point.offset) Word.largest
  ordered : points.Pairwise fun earlier later => earlier.timestamp ≤ later.timestamp
  distinct : ∀ first ∈ points, ∀ second ∈ points, first ≠ second → first.ToldApart second

namespace Cursor

variable {row : Row} {cursor : Cursor} {place : Place} {points : List Point}

theorem Stands.chronological (stands : Stands row cursor place) (wide : 0 < row.granularity.interval.seconds.toNat) :
    row.Chronological (place.pairs.map row.point) := by
  have capped : ∀ point ∈ place.pairs.map row.point,
      point.timestamp.toNat = min (row.exactStart point.offset) Word.largest := by
    intro point member
    obtain ⟨pair, _, rfl⟩ := List.mem_map.mp member
    exact row.timestamp_eq_min pair.1.field.offset_le
  have increasing : (place.pairs.map row.point).Pairwise fun earlier later => earlier.offset < later.offset :=
    List.pairwise_map.mpr (Place.pairs_increasing stands.sound)
  refine ⟨capped, ?_, ?_⟩
  · refine increasing.imp_of_mem ?_
    intro earlier later isEarlier isLater below
    have starts := Row.exactStart_lt wide below
    rw [UInt64.le_iff_toNat_le, capped earlier isEarlier, capped later isLater]
    omega
  · have apart : (place.pairs.map row.point).Pairwise Point.ToldApart := by
      refine increasing.imp_of_mem ?_
      intro earlier later isEarlier isLater below same
      have starts := Row.exactStart_lt wide below
      have numbers := congrArg UInt64.toNat same
      rw [capped earlier isEarlier, capped later isLater] at numbers
      rw [capped earlier isEarlier]
      omega
    intro first isFirst second isSecond different
    exact apart.forall isFirst isSecond different

/-- Whatever is read from a cursor of a row, the timestamps of the points are the exact starts of their buckets up to the
largest word. They never fall, and different points have different timestamps below that word. -/
theorem points_chronological (frozen : row.Frozen) (reached : Reachable row cursor) (yields : Yields row cursor points) :
    row.Chronological points := by
  obtain ⟨cells, packs⟩ := frozen.packs
  obtain ⟨place, stands, _⟩ := reached.stands packs
  rw [yields.eq_drain, stands.drain]
  exact stands.chronological frozen.interval_pos

end Cursor

/-- The sums of the small row in buckets of `2 ^ 54` seconds. All but the first are capped in milliseconds. -/
def Gappy.vast : Row :=
  { row with granularity := ⟨⟨0x40000000000000, 0⟩, ⟨0x80000000000000, 0⟩⟩, counts? := none }

theorem Gappy.vast_frozen : vast.Frozen :=
  ⟨⟨.sum, vast.granularity⟩, .default, { start with selection := ⟨.sum, 0, none⟩, granularity := vast.granularity }, feeds,
    rfl, rfl⟩

theorem Cursor.points_chronological_vast :
    Gappy.vast.Frozen ∧ Reachable Gappy.vast (start Gappy.vast) ∧
      Yields Gappy.vast (start Gappy.vast) Gappy.vast.points ∧
      Gappy.vast.points.map Point.timestamp = [18014398509481984000, 18446744073709551615, 18446744073709551615] ∧
      Gappy.vast.Chronological Gappy.vast.points := by
  have yields : Yields Gappy.vast (start Gappy.vast) Gappy.vast.points := yields_drain _ _
  exact ⟨Gappy.vast_frozen, .start, yields, by decide +kernel, points_chronological Gappy.vast_frozen .start yields⟩

end Rollup
