import Rollup.CellStream
import Rollup.Granularity
import Rollup.RowKey
import Rollup.Timestamp
import Rollup.Value

/-! A finished row: its key and its streams, ready to be read. -/

namespace Rollup

structure Row where
  key : RowKey
  granularity : Granularity
  resolution : Resolution
  values : CellStream
  /-- Present when values are read together with their counts. -/
  counts? : Option CellStream
  deriving DecidableEq

namespace Row

def counted (row : Row) : Bool := row.counts?.isSome

def timestamp (row : Row) (offset : Nat) : UInt64 :=
  Timestamp.ofBucket row.key.baseTime row.granularity.interval.seconds offset row.resolution

def text (row : Row) : String :=
  "RollupSeq(key=" ++ Bytes.listed row.key.bytes ++ ", base_time=" ++
    Nat.repr row.key.baseTime.toNat ++ ", interval=" ++
    Nat.repr row.granularity.interval.seconds.toNat ++ "s, values=" ++ Nat.repr row.values.size ++
    (match row.counts? with
    | some counts => ", counts=" ++ Nat.repr counts.size
    | none => "") ++ ")"

end Row

end Rollup
