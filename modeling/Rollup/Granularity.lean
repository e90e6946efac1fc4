import Rollup.Duration

/-! The granularity of a rollup table: the width of one bucket and the time that one row spans. An
accepted granularity cuts the row into at most 4096 buckets of whole seconds. -/

namespace Rollup

structure Granularity where
  interval : Duration
  span : Duration
  deriving DecidableEq, Repr

namespace Granularity

/-- Buckets in a row; none if a bucket has no whole second. -/
def buckets (granularity : Granularity) : Nat :=
  granularity.span.seconds.toNat / granularity.interval.seconds.toNat

/-- The first check that fails is reported. -/
def validate (granularity : Granularity) : Except IntervalFault Unit :=
  let interval := granularity.interval.seconds
  let span := granularity.span.seconds
  if granularity.interval.isZero then .error .zero
  else if granularity.interval.nanos ≠ 0 ∨ granularity.span.nanos ≠ 0 then .error .fractional
  else if span < interval then .error (.shortSpan span interval)
  else if span.toNat % interval.toNat ≠ 0 then .error (.unevenSpan span interval)
  else if granularity.buckets > 4096 then .error (.tooManyBuckets granularity.buckets)
  else .ok ()

def ofDurations (interval span : Duration) : Except IntervalFault Granularity :=
  let granularity := Granularity.mk interval span
  match granularity.validate with
  | .ok () => .ok granularity
  | .error fault => .error fault

def parse (interval span : String) : Except IntervalFault Granularity :=
  match Duration.parse interval with
  | .error fault => .error fault
  | .ok interval =>
    match Duration.parse span with
    | .error fault => .error fault
    | .ok span => ofDurations interval span

end Granularity

end Rollup
