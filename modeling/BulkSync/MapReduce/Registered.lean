import BulkSync.Journal
import BulkSync.MapReduce.Execute

set_option autoImplicit false

namespace BulkSync

structure Registered where
  implementation : String
  memoryKey : String
  kind : Memory.Kind
  participates : Stage → Bool
  run : List Vertex → Nat → Except Failure Memory.Value
  journal : List Vertex → Nat → List Journal.Line

namespace Registered

def name (job : Registered) : String := shortName job.implementation

def resultKey (job : Registered) : Memory.Key := ⟨job.memoryKey, job.kind⟩

def describe (job : Registered) : String := s!"mapreduce[{job.name}:{job.memoryKey}]"

/-- One implementation under one key is one job, whatever its other parameters. -/
def same (a b : Registered) : Bool :=
  a.implementation = b.implementation && a.memoryKey = b.memoryKey

end Registered

namespace Job

variable {κ ν ρ ω : Type} [Ord κ] [Std.TransOrd κ] (job : Job κ ν ρ ω)

def journal (vertices : List Vertex) (parts : Nat) : List Journal.Line :=
  if !job.participates .map then []
  else
    match job.shuffled vertices parts with
    | .ok groups =>
      let count := (splitInto parts vertices).length
      [⟨.trace, s!"{job.name}: {count} partitions shuffled into {groups.size} keys"⟩]
    | .error _ => []

def register : Registered where
  implementation := job.implementation
  memoryKey := job.memoryKey
  kind := job.kind
  participates := job.participates
  run := job.run
  journal := job.journal

end Job

end BulkSync
