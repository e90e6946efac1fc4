import Mathlib.Data.Int.ConditionallyCompleteOrder
import Mathlib.Data.Nat.SuccPred
import Mathlib.Order.CompletePartialOrder
import Mathlib.Order.Lattice.Nat
import Mathlib.Order.SuccPred.IntervalSucc
import Rollup.Granularity
import Rollup.Proofs.FieldCodec

/-! An accepted granularity tiles its row: the buckets follow one upon the other from the base time to the end of the row,
and each of them has an offset that a field can carry. The checks stand in an order in which no step divides by zero. -/

namespace Rollup

namespace Stepwise

/-- How often a part goes into the total. There is no answer for a part of zero. -/
def over? (total part : UInt64) : Option UInt64 := if part = 0 then none else some (total / part)

/-- What is left of the total when a part has been taken as often as it goes. -/
def rest? (total part : UInt64) : Option UInt64 := if part = 0 then none else some (total % part)

/-- The quotient is taken once the remainder is known to be zero. -/
def validate? (granularity : Granularity) : Option (Except IntervalFault Unit) :=
  let interval := granularity.interval
  let span := granularity.span
  if interval.isZero then some (.error .zero)
  else if interval.nanos ≠ 0 ∨ span.nanos ≠ 0 then some (.error .fractional)
  else if span.seconds < interval.seconds ∨ span.seconds = interval.seconds ∧ span.nanos < interval.nanos then
    some (.error (.shortSpan span.seconds interval.seconds))
  else do
    let left ← rest? span.seconds interval.seconds
    if left ≠ 0 then some (.error (.unevenSpan span.seconds interval.seconds))
    else
      let buckets ← over? span.seconds interval.seconds
      if buckets > 4096 then some (.error (.tooManyBuckets buckets.toNat)) else some (.ok ())

theorem over?_eq {total part : UInt64} (positive : part ≠ 0) : over? total part = some (total / part) := if_neg positive

theorem rest?_eq {total part : UInt64} (positive : part ≠ 0) : rest? total part = some (total % part) := if_neg positive

end Stepwise

theorem Duration.seconds_ne_zero {duration : Duration} (wide : ¬ duration.isZero = true) (whole : duration.nanos = 0) :
    duration.seconds ≠ 0 := by
  intro zero
  simp [Duration.isZero, zero, whole] at wide

namespace Granularity
variable {granularity : Granularity}

/-- Whole seconds, at least one to a bucket, and a positive number of buckets to the row, no more than there are offsets. -/
structure Tiles (granularity : Granularity) : Prop where
  interval_whole : granularity.interval.nanos = 0
  span_whole : granularity.span.nanos = 0
  wide : 1 ≤ granularity.interval.seconds.toNat
  multiple : ∃ count, 0 < count ∧ count ≤ 4096 ∧
    granularity.span.seconds.toNat = count * granularity.interval.seconds.toNat

theorem Tiles.buckets_eq (tiles : granularity.Tiles) {count : Nat}
    (multiple : granularity.span.seconds.toNat = count * granularity.interval.seconds.toNat) :
    granularity.buckets = count := by
  rw [buckets, multiple]
  exact Nat.mul_div_cancel count tiles.wide

theorem Tiles.buckets_mul (tiles : granularity.Tiles) :
    granularity.buckets * granularity.interval.seconds.toNat = granularity.span.seconds.toNat := by
  obtain ⟨count, _, _, multiple⟩ := tiles.multiple
  rw [tiles.buckets_eq multiple, multiple]

theorem Tiles.buckets_le (tiles : granularity.Tiles) : granularity.buckets ≤ 4096 := by
  obtain ⟨count, _, few, multiple⟩ := tiles.multiple
  rwa [tiles.buckets_eq multiple]

private theorem check_ok_iff {bad : Prop} [Decidable bad] {fault : IntervalFault} {rest : Except IntervalFault Unit} :
    (if bad then .error fault else rest) = .ok () ↔ ¬ bad ∧ rest = .ok () := by
  by_cases failed : bad <;> simp [failed]

theorem validate_ok_iff : granularity.validate = .ok () ↔ granularity.Tiles := by
  simp only [validate, check_ok_iff, not_or, Decidable.not_not]
  constructor
  · rintro ⟨wide, ⟨intervalWhole, spanWhole⟩, long, even, few, -⟩
    have nonzero := Duration.seconds_ne_zero wide intervalWhole
    have positive : 0 < granularity.interval.seconds.toNat := UInt64.pos_iff_ne_zero.mpr nonzero
    have atLeast : granularity.interval.seconds.toNat ≤ granularity.span.seconds.toNat := UInt64.not_lt.mp long
    exact ⟨intervalWhole, spanWhole, positive, granularity.buckets, Nat.div_pos atLeast positive, Nat.not_lt.mp few,
      (Nat.div_mul_cancel (Nat.dvd_of_mod_eq_zero even)).symm⟩
  · intro tiles
    obtain ⟨count, positive, few, multiple⟩ := tiles.multiple
    have wide := tiles.wide
    refine ⟨?_, ⟨tiles.interval_whole, tiles.span_whole⟩, ?_, ?_, Nat.not_lt.mpr tiles.buckets_le, trivial⟩
    · intro zero
      simp [Duration.isZero] at zero
      simp [zero.1] at wide
    · rw [UInt64.lt_iff_toNat_lt, multiple, Nat.not_lt]
      exact Nat.le_mul_of_pos_left _ positive
    · rw [multiple, Nat.mul_mod_left]

theorem ofDurations_ok_iff {interval span : Duration} :
    ofDurations interval span = .ok granularity ↔ granularity = ⟨interval, span⟩ ∧ granularity.Tiles := by
  simp only [ofDurations]
  split
  · next valid =>
    rw [Except.ok.injEq]
    constructor
    · rintro rfl
      exact ⟨rfl, validate_ok_iff.mp valid⟩
    · rintro ⟨rfl, _⟩
      rfl
  · next fault failed =>
    refine ⟨fun impossible => (nomatch impossible), ?_⟩
    rintro ⟨rfl, tiles⟩
    rw [validate_ok_iff.mpr tiles] at failed
    cases failed

end Granularity

/-- Once both durations are whole and the shorter one is not zero, it can be divided by. -/
theorem Stepwise.validate?_eq (granularity : Granularity) : validate? granularity = some granularity.validate := by
  unfold validate? Granularity.validate
  dsimp only
  split
  · rfl
  next wide =>
  split
  · rfl
  next fractions =>
  obtain ⟨intervalWhole, spanWhole⟩ := not_or.mp fractions
  rw [Decidable.not_not] at intervalWhole spanWhole
  have divides := Duration.seconds_ne_zero wide intervalWhole
  have shorter : (granularity.span.seconds < granularity.interval.seconds ∨
      granularity.span.seconds = granularity.interval.seconds ∧ granularity.span.nanos < granularity.interval.nanos) ↔
        granularity.span.seconds < granularity.interval.seconds := by
    simp [intervalWhole, spanWhole]
  have even : granularity.span.seconds % granularity.interval.seconds ≠ 0 ↔
      granularity.span.seconds.toNat % granularity.interval.seconds.toNat ≠ 0 := by
    rw [Ne, Ne, ← UInt64.toNat_inj, UInt64.toNat_mod]
    rfl
  have many : granularity.span.seconds / granularity.interval.seconds > 4096 ↔ granularity.buckets > 4096 := by
    rw [gt_iff_lt, UInt64.lt_iff_toNat_lt, UInt64.toNat_div]
    rfl
  simp only [shorter, rest?_eq divides, over?_eq divides, Option.bind_eq_bind, Option.bind_some, even, many]
  repeat' split
  all_goals rfl

namespace Granularity
variable {granularity : Granularity} {base : Int}

/-- The time at which a bucket starts, in a row that starts at the base time. -/
def bucketStart (granularity : Granularity) (base : Int) (offset : Nat) : Int :=
  base + offset * granularity.interval.seconds.toNat

/-- The times from the start of a bucket up to the start of the next one. -/
def bucket (granularity : Granularity) (base : Int) (offset : Nat) : Set Int :=
  Set.Ico (granularity.bucketStart base offset) (granularity.bucketStart base (offset + 1))

theorem bucketStart_succ (offset : Nat) : granularity.bucketStart base (offset + 1) =
    granularity.bucketStart base offset + granularity.interval.seconds.toNat := by
  rw [bucketStart, bucketStart, Int.natCast_succ, Int.add_mul, Int.one_mul, Int.add_assoc]

theorem bucketStart_monotone : Monotone (granularity.bucketStart base) := by
  refine monotone_nat_of_le_succ fun offset => ?_
  rw [bucketStart_succ]
  omega

/-- The first buckets leave nothing out between them. -/
theorem iUnion_bucket (count : Nat) :
    ⋃ offset < count, granularity.bucket base offset = Set.Ico base (granularity.bucketStart base count) := by
  have first : granularity.bucketStart base 0 = base := by simp [bucketStart]
  induction count with
  | zero => simp [first]
  | succ count ih =>
    have behind : base ≤ granularity.bucketStart base count := by
      have onwards : granularity.bucketStart base 0 ≤ granularity.bucketStart base count :=
        bucketStart_monotone (Nat.zero_le count)
      rwa [first] at onwards
    rw [Set.biUnion_lt_succ, ih, bucket, Set.Ico_union_Ico_eq_Ico behind (bucketStart_monotone (Nat.le_succ count))]

/-- The buckets of a row are parts of it, none of them empty. Each time of the row is in one of them and in no other. -/
structure Partitions (granularity : Granularity) (base : Int) : Prop where
  covers : ⋃ offset < granularity.buckets, granularity.bucket base offset =
    Set.Ico base (base + granularity.span.seconds.toNat)
  apart : Pairwise fun first second => Disjoint (granularity.bucket base first) (granularity.bucket base second)
  nonempty : ∀ offset, (granularity.bucket base offset).Nonempty

theorem Tiles.partitions (tiles : granularity.Tiles) (base : Int) : granularity.Partitions base := by
  refine ⟨?_, bucketStart_monotone.pairwise_disjoint_on_Ico_succ, fun offset => ?_⟩
  · rw [iUnion_bucket, bucketStart, ← tiles.buckets_mul, Int.natCast_mul]
  · have wide := tiles.wide
    refine Set.nonempty_Ico.mpr ?_
    rw [bucketStart_succ]
    omega

theorem Tiles.exists_field (tiles : granularity.Tiles) {offset width : Nat} {kind : NumberKind}
    (inside : offset < granularity.buckets) (allowed : Field.allowsWidth kind width = true) :
    ∃ field, Field.ofParts offset width kind = .ok field ∧ field.offset = offset := by
  have few := tiles.buckets_le
  have small : offset ≤ Field.maxOffset := by
    unfold Field.maxOffset
    omega
  obtain ⟨field, built⟩ := Field.exists_ofParts_iff.mpr ⟨small, allowed⟩
  exact ⟨field, built, (Field.ofParts_ok built).1⟩

/-- Two durations are accepted just when the longer one is made up of whole buckets and each of these has an offset;
whatever they are, no check divides by zero. Accepted buckets last as long as the row. Each has a field for every width
that a kind takes. They partition the row, whenever it starts. -/
theorem accepted_iff_tiles (interval span : Duration) :
    ((∃ granularity, ofDurations interval span = .ok granularity) ↔ Tiles ⟨interval, span⟩) ∧
      Stepwise.validate? ⟨interval, span⟩ = some (validate ⟨interval, span⟩) ∧
      ∀ granularity, ofDurations interval span = .ok granularity →
        granularity = ⟨interval, span⟩ ∧
        granularity.buckets * interval.seconds.toNat = span.seconds.toNat ∧
        (∀ offset < granularity.buckets, ∀ kind width, Field.allowsWidth kind width = true →
          ∃ field, Field.ofParts offset width kind = .ok field ∧ field.offset = offset) ∧
        ∀ base, granularity.Partitions base := by
  refine ⟨?_, Stepwise.validate?_eq _, fun granularity accepted => ?_⟩
  · constructor
    · rintro ⟨granularity, accepted⟩
      obtain ⟨rfl, tiles⟩ := ofDurations_ok_iff.mp accepted
      exact tiles
    · intro tiles
      exact ⟨⟨interval, span⟩, ofDurations_ok_iff.mpr ⟨rfl, tiles⟩⟩
  · obtain ⟨rfl, tiles⟩ := ofDurations_ok_iff.mp accepted
    exact ⟨rfl, tiles.buckets_mul, fun _ inside _ _ allowed => tiles.exists_field inside allowed, tiles.partitions⟩

/-! A row with every offset in use and buckets as long as words allow for then, and half a second, which is refused before
anything is divided by its whole seconds. -/

def longest : Granularity := ⟨⟨4503599627370495, 0⟩, ⟨18446744073709547520, 0⟩⟩

theorem accepted_iff_tiles_longest :
    ofDurations ⟨4503599627370495, 0⟩ ⟨18446744073709547520, 0⟩ = .ok longest ∧ longest.Tiles ∧
      longest.buckets * 4503599627370495 = 18446744073709547520 ∧
      (4095 < longest.buckets ∧ Field.allowsWidth .float 8 = true ∧
        ∃ field, Field.ofParts 4095 8 .float = .ok field ∧ field.offset = 4095) ∧
      longest.Partitions (-7) ∧ Stepwise.validate? ⟨⟨0, 500000000⟩, ⟨60, 0⟩⟩ = some (.error .fractional) := by
  obtain ⟨accepts, _, accepted⟩ := accepted_iff_tiles ⟨4503599627370495, 0⟩ ⟨18446744073709547520, 0⟩
  have made : ofDurations ⟨4503599627370495, 0⟩ ⟨18446744073709547520, 0⟩ = .ok longest := by decide
  have inside : 4095 < longest.buckets := by decide
  obtain ⟨_, lasts, fields, partitions⟩ := accepted longest made
  refine ⟨made, accepts.mp ⟨longest, made⟩, lasts, ⟨inside, rfl, fields 4095 inside .float 8 rfl⟩, partitions (-7), ?_⟩
  exact (accepted_iff_tiles ⟨0, 500000000⟩ ⟨60, 0⟩).2.1

end Granularity

end Rollup
