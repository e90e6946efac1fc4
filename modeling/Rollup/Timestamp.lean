import Rollup.Word

/-! Timestamps are words in seconds or in milliseconds. A bucket's timestamp is its row's base time
plus its offset in buckets. -/

namespace Rollup

inductive Resolution
  | seconds
  | milliseconds
  deriving DecidableEq, Repr

def Resolution.name : Resolution → String
  | seconds => "seconds"
  | milliseconds => "milliseconds"

def Resolution.ofName? : String → Option Resolution
  | "seconds" => some .seconds
  | "milliseconds" => some .milliseconds
  | _ => none

namespace Timestamp

/-- The start of bucket `offset`; every step stays at the largest word once it gets there. -/
def ofBucket (base interval : UInt64) (offset : Nat) (resolution : Resolution) : UInt64 :=
  let start := Word.add base (Word.mul (UInt64.ofNat offset) interval)
  match resolution with
  | .seconds => start
  | .milliseconds => Word.mul start 1000

/-- A timestamp below `2 ^ 32` counts seconds and any other counts milliseconds. -/
def inSeconds (timestamp : UInt64) : Bool := timestamp.toNat < 0x100000000

/-- A timestamp in the given resolution. Part of a second counts as a whole one, so that the result
is never before the instant asked for. -/
def normalize (timestamp : UInt64) (resolution : Resolution) : UInt64 :=
  match resolution, inSeconds timestamp with
  | .milliseconds, true => Word.mul timestamp 1000
  | .seconds, false => UInt64.ofNat ((timestamp.toNat + 999) / 1000)
  | _, _ => timestamp

end Timestamp

end Rollup
