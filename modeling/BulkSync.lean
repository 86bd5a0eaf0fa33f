import BulkSync.Algorithms.Count
import BulkSync.Algorithms.GroupCount
import BulkSync.Algorithms.PageRank
import BulkSync.Config.Json
import BulkSync.Config.Persist
import BulkSync.Graph.Basic
import BulkSync.Graph.Codec
import BulkSync.MapReduce.Registered
import BulkSync.Memory.Barrier
import BulkSync.Memory.Codec
import BulkSync.Memory.Read
import BulkSync.Proofs.Algorithms.Counting
import BulkSync.Proofs.Algorithms.PageRank
import BulkSync.Proofs.Algorithms.Ranks
import BulkSync.Proofs.Config.Json
import BulkSync.Proofs.Config.Persistence
import BulkSync.Proofs.Decimal.Doubles
import BulkSync.Proofs.Decimal.Interval
import BulkSync.Proofs.Decimal.Reading
import BulkSync.Proofs.Decimal.Shortest
import BulkSync.Proofs.Graph.Display
import BulkSync.Proofs.Graph.Edges
import BulkSync.Proofs.Json.Number
import BulkSync.Proofs.Json.Text
import BulkSync.Proofs.Json.Tree
import BulkSync.Proofs.Machine.Refinement
import BulkSync.Proofs.Machine.Supersteps
import BulkSync.Proofs.MapReduce.Combining
import BulkSync.Proofs.MapReduce.Contract
import BulkSync.Proofs.MapReduce.Shuffling
import BulkSync.Proofs.MapReduce.Storing
import BulkSync.Proofs.Memory.Completion
import BulkSync.Proofs.Memory.Consistency
import BulkSync.Proofs.Memory.Declaring
import BulkSync.Proofs.Memory.Reserved
import BulkSync.Proofs.Memory.Rollback
import BulkSync.Proofs.Memory.Superstep
import BulkSync.Proofs.Program.Delivery
import BulkSync.Proofs.Run.Abort
import BulkSync.Proofs.Run.Acceptance
import BulkSync.Proofs.Run.Determinism
import BulkSync.Proofs.Run.Halting
import BulkSync.Proofs.Run.Limit
import BulkSync.Proofs.Run.Quiescence
import BulkSync.Proofs.Run.Results
import BulkSync.Proofs.Wire.Bits
import BulkSync.Proofs.Wire.Codec
import BulkSync.Proofs.Wire.Lawful
import BulkSync.Run.Journal
import BulkSync.Script.Job
import BulkSync.Script.Program
