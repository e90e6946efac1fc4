import Rollup.Aggregator
import Rollup.Bytes

/-! Failures are causes with the data that explains them. Their wording is in one place, the
functions named `message`. -/

namespace Rollup

/-- A row holds its values in one stream of cells and their counts in another. -/
inductive StreamKind
  | value
  | count
  deriving DecidableEq, Repr

def StreamKind.name : StreamKind → String
  | value => "value"
  | count => "count"

inductive NumberKind
  | integer
  | float
  deriving DecidableEq, Repr

def NumberKind.name : NumberKind → String
  | integer => "integer"
  | float => "float"

/-- A whole number of seconds with its unit; nothing at all is counted in nanoseconds. -/
def secondsText (seconds : UInt64) : String :=
  if seconds = 0 then "0ns" else Nat.repr seconds.toNat ++ "s"

inductive IntervalFault
  | unreadable (text : String)
  | unknownUnit (unit : Char)
  | tooLarge (text : String)
  | zero
  | fractional
  | shortSpan (span interval : UInt64)
  | unevenSpan (span interval : UInt64)
  | tooManyBuckets (buckets : Nat)
  deriving DecidableEq, Repr

def IntervalFault.message : IntervalFault → String
  | unreadable text => "cannot parse duration '" ++ text ++ "'"
  | unknownUnit unit =>
    "unknown duration unit '" ++ String.singleton unit ++ "', use s, m, h, or d"
  | tooLarge text => "duration '" ++ text ++ "' is too large"
  | zero => "interval cannot be zero"
  | fractional => "interval and row span must be whole seconds"
  | shortSpan span interval =>
    "row span (" ++ secondsText span ++ ") must be >= interval (" ++ secondsText interval ++ ")"
  | unevenSpan span interval =>
    "row span (" ++ secondsText span ++ ") must be a multiple of the interval (" ++
      secondsText interval ++ ")"
  | tooManyBuckets buckets =>
    Nat.repr buckets ++ " buckets per row exceed the 4096 encodable offsets"

inductive UidField
  | metric
  | tagKey
  | tagValue
  deriving DecidableEq, Repr

def UidField.name : UidField → String
  | metric => "metric_width"
  | tagKey => "tagk_width"
  | tagValue => "tagv_width"

inductive ConfigError
  | unreadable (path : String)
  | malformed (path : String)
  | unknownAggregator (name : String)
  | sharedId (id : UInt8) (first second : String)
  | badInterval (fault : IntervalFault)
  | zeroWidth (field : UidField)
  deriving DecidableEq, Repr

def ConfigError.message : ConfigError → String
  | unreadable path => "failed to load config from '" ++ path ++ "'"
  | malformed path => "failed to parse config from '" ++ path ++ "'"
  | unknownAggregator name => "no rollup id configured for aggregator '" ++ name ++ "'"
  | sharedId id first second =>
    "rollup id " ++ Nat.repr id.toNat ++ " is assigned to both '" ++ first ++ "' and '" ++
      second ++ "'"
  | badInterval fault => "invalid rollup interval: " ++ fault.message
  | zeroWidth field => "invalid row key layout: " ++ field.name ++ " cannot be zero"

/-- What is wrong with a cell's two-byte field or with its payload. -/
inductive CellError
  | truncated (start needed length : Nat)
  | badWidth (kind : NumberKind) (width : Nat)
  | lengthMismatch (declared actual : Nat)
  | offsetTooLarge (offset : Nat)
  | integerTooWide (value : Int64) (width : Nat)
  deriving DecidableEq, Repr

def CellError.message : CellError → String
  | truncated start needed length =>
    "truncated field: need " ++ Nat.repr needed ++ " bytes at " ++ Nat.repr start ++
      ", buffer has " ++ Nat.repr length
  | badWidth kind width => "invalid " ++ kind.name ++ " value width " ++ Nat.repr width
  | lengthMismatch declared actual =>
    "value is " ++ Nat.repr actual ++ " bytes but qualifier declares " ++ Nat.repr declared
  | offsetTooLarge offset =>
    "offset " ++ Nat.repr offset ++ " exceeds the maximum encodable offset 4095"
  | integerTooWide value width =>
    "integer " ++ Int.repr value.toInt ++ " does not fit in " ++ Nat.repr width ++ " bytes"

inductive AppendError
  | rowAlreadySet
  | rowNotSet
  | otherRow (row column : Bytes)
  | shortKey (length needed : Nat)
  | foreignQualifier (qualifier : Bytes) (primary : Aggregator) (counted : Bool)
  | outOfOrder (stream : StreamKind) (offset last : Nat)
  deriving DecidableEq, Repr

def AppendError.message : AppendError → String
  | rowAlreadySet => "row was already set"
  | rowNotSet => "row was never set"
  | otherRow row column =>
    "column key " ++ Bytes.listed column ++ " does not belong to row " ++ Bytes.listed row
  | shortKey length needed =>
    "row key is " ++ Nat.repr length ++ " bytes, layout needs at least " ++ Nat.repr needed
  | foreignQualifier qualifier primary counted =>
    "column qualifier " ++ Bytes.listed qualifier ++ " is not from aggregator " ++
      primary.name ++ (if counted then " or count" else "")
  | outOfOrder stream offset last =>
    stream.name ++ " offset " ++ Nat.repr offset ++ " is <= the last offset " ++ Nat.repr last

inductive ReadError
  | wrongKind (offset : Nat) (expected : NumberKind)
  | outOfBounds (index length : Nat)
  | misaligned (field payload expected : Nat)
  deriving DecidableEq, Repr

def ReadError.message : ReadError → String
  | wrongKind offset expected =>
    "value at offset " ++ Nat.repr offset ++ " is not a " ++ expected.name
  | outOfBounds index length =>
    "index " ++ Nat.repr index ++ " is out of bounds (len " ++ Nat.repr length ++ ")"
  | misaligned field payload expected =>
    "value index " ++ Nat.repr payload ++ " does not match qualifier index " ++
      Nat.repr field ++ " (expected " ++ Nat.repr expected ++ ")"

inductive Error
  | config (cause : ConfigError)
  | cell (cause : CellError)
  | append (cause : AppendError)
  | read (cause : ReadError)
  /-- A sum of widths is no word. This is not reported to a caller: the program stops. -/
  | overflow
  deriving DecidableEq, Repr

def Error.message : Error → String
  | config cause => "config error: " ++ cause.message
  | cell cause => "codec error: " ++ cause.message
  | append cause => "append error: " ++ cause.message
  | read cause => "read error: " ++ cause.message
  | overflow => "attempt to add with overflow"

end Rollup
