import Rollup.Command.Run
import Rollup.Json.Query
import Rollup.Main
import Rollup.Proofs.Building
import Rollup.Proofs.Standing
import Rollup.Proofs.SavedState
import Rollup.Proofs.Traversal
import Rollup.Proofs.Resume
import Rollup.Proofs.InnerJoin
import Rollup.Proofs.Representation
import Rollup.Proofs.PayloadCodec
import Rollup.Proofs.Routing
import Rollup.Proofs.Written
import Rollup.Proofs.RoundTrip
import Rollup.Proofs.Seeking
import Rollup.Proofs.Duplicates
import Rollup.Proofs.SameRow
import Rollup.Proofs.Refusals
import Rollup.Proofs.Skipping
import Rollup.Proofs.Rescans
import Rollup.Proofs.Divergence
import Rollup.Proofs.Rearrangement
import Rollup.Proofs.Spelling
import Rollup.Proofs.Lockstep
import Rollup.Proofs.SharedIds
import Rollup.Proofs.OneRow
import Rollup.Proofs.Decimals
import Rollup.Proofs.Decoding
import Rollup.Proofs.SavedSettings
import Rollup.Proofs.Salting
import Rollup.Proofs.Boundaries
import Rollup.Proofs.LookingAhead
import Rollup.Proofs.Returning
import Rollup.Proofs.IntegerWidths
import Rollup.Proofs.WordSteps
import Rollup.Proofs.Chronology
import Rollup.Proofs.FirstColumn
import Rollup.Proofs.RandomAccess
import Rollup.Proofs.KeyParts
import Rollup.Proofs.Inspection
import Rollup.Proofs.Dumps
import Rollup.Proofs.DurationSteps
import Rollup.Proofs.Rollback
import Rollup.Proofs.LiningUp
import Rollup.Proofs.Buckets
import Rollup.Proofs.Clashes
