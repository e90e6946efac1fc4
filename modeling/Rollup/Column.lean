import Rollup.Bytes

/-! One cell as the store hands it over. -/

namespace Rollup

structure Column where
  rowKey : Bytes
  qualifier : Bytes
  value : Bytes
  /-- When the cell was written; it settles which of repeated cells is kept. -/
  timestamp : UInt64
  deriving DecidableEq, Repr

end Rollup
