import BulkSync.Failure
import BulkSync.Memory.Key
import BulkSync.Program.Action

set_option autoImplicit false

namespace BulkSync

structure VertexProgram (M : Type) where
  -- The keys that may be written.
  keys : List Memory.Key
  -- Before the first superstep.
  setup : Action Empty (Except Cause Unit)
  -- At an active vertex, with its messages; the vertex is given back also on failure.
  execute : Vertex → List M → Action M (Except Cause Unit × Vertex)
  -- After each barrier.
  terminate : Action Empty (Except Cause Bool)

def VertexProgram.idle : VertexProgram Unit where
  keys := []
  setup := .done (.ok ())
  execute v _ := .done (.ok (), v)
  terminate := .done (.ok true)

end BulkSync
