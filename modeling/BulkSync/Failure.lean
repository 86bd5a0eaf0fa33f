import BulkSync.Config.Error
import BulkSync.Graph.Vertex
import BulkSync.MapReduce.Stage
import BulkSync.Memory.Error
import BulkSync.Run.Phase

set_option autoImplicit false

namespace BulkSync

inductive Cause
  | memory (error : Memory.Error)
  | other (reason : String)
  deriving DecidableEq

def Cause.message : Cause → String
  | .memory error => error.message
  | .other reason => reason

inductive Failure
  | config (error : Config.Error)
  | memory (error : Memory.Error)
  | setup (cause : Cause)
  | vertex (id : VertexId) (superstep : Nat) (cause : Cause)
  | terminate (superstep : Nat) (cause : Cause)
  | jobStage (job : String) (stage : Stage) (cause : Cause)
  | brokenContract (job reason : String)
  | superstepLimit (limit : UInt64)
  | wrongPhase (operation : String) (phase : Phase)
  deriving DecidableEq

def Failure.message : Failure → String
  | .config error => error.message
  | .memory error => error.message
  | .setup cause => "vertex program setup failed: " ++ cause.message
  | .vertex id superstep cause =>
    s!"vertex {id.display} failed in superstep {superstep}: " ++ cause.message
  | .terminate superstep cause =>
    s!"termination check failed after superstep {superstep}: " ++ cause.message
  | .jobStage job stage cause =>
    s!"map-reduce job `{job}` failed in the {stage.name} stage: " ++ cause.message
  | .brokenContract job reason =>
    s!"map-reduce job `{job}` violated its emission contract: {reason}"
  | .superstepLimit limit => s!"superstep limit of {limit.toNat} reached without termination"
  | .wrongPhase operation phase =>
    s!"`{operation}` is not allowed while the run is {phase.adjective}"

end BulkSync
