import BulkSync.Config.Persist
import BulkSync.Graph.Codec
import BulkSync.MapReduce.Registered
import BulkSync.Program.Basic

set_option autoImplicit false

namespace BulkSync

/-- The rank of a vertex is what its neighbours pass on, damped, and a share that everyone has.
`vertexCount` scales the ranks; it need not be the number of vertices. -/
structure PageRank where
  alpha : Float
  totalIterations : UInt64
  vertexCount : Float

namespace PageRank

def default : PageRank := ⟨0.85, 30, 1.0⟩

def alphaName : String := "superstep.pageRankVertexProgram.alpha"
def totalIterationsName : String := "superstep.pageRankVertexProgram.totalIterations"
def vertexCountName : String := "superstep.pageRankVertexProgram.vertexCount"

def validate (p : PageRank) : Except Config.Error PageRank :=
  if !(0.0 < p.alpha && p.alpha ≤ 1.0) then
    .error (.invalidParameter alphaName
      ("alpha must lie in (0, 1], got " ++ Decimal.Style.plain.format p.alpha))
  else if p.totalIterations = 0 then
    .error (.invalidParameter totalIterationsName "at least one iteration is required")
  else if !(0.0 < p.vertexCount && p.vertexCount.isFinite) then
    .error (.invalidParameter vertexCountName
      ("vertex count must be positive, got " ++ Decimal.Style.plain.format p.vertexCount))
  else .ok p

def build (alpha : Option Float) (totalIterations : Option UInt64) (vertexCount : Option Float) :
    Except Config.Error PageRank :=
  validate ⟨alpha.getD default.alpha, totalIterations.getD default.totalIterations,
    vertexCount.getD default.vertexCount⟩

def property : String := "pageRank"

def sum (xs : List Float) : Float := xs.foldl (· + ·) (-0.0)

def seed (p : PageRank) : Float := 1.0 / p.vertexCount

def next (p : PageRank) (incoming : Float) : Float :=
  p.alpha * incoming + (1.0 - p.alpha) / p.vertexCount

def share (rank : Float) (v : Vertex) : Float := rank / Float.ofNat v.outDegree

def execute (p : PageRank) (v : Vertex) (messages : List Float) :
    Action Float (Except Cause Unit × Vertex) := do
  let iteration ← Action.ask .iteration
  let rank := if iteration = 0 then p.seed else p.next (sum messages)
  let w := v.setProperty property (.float rank)
  if 0 < w.outDegree then Action.sendAll (share rank w) w.outEdges
  return (.ok (), w)

def program (p : PageRank) : VertexProgram Float where
  keys := []
  setup := .done (.ok ())
  execute := p.execute
  terminate := do
    let iteration ← Action.ask .iteration
    return .ok (p.totalIterations.toNat ≤ iteration + 1)

def implementation : String := "PageRankVertexProgram"

instance : Persist PageRank where
  store p r :=
    (((r.set Config.implementationKey (.text implementation)).set alphaName
      (.float p.alpha)).set totalIterationsName (.integer p.totalIterations.toInt64)).set
      vertexCountName (.float p.vertexCount)
  load r := do
    r.checkImplementation implementation
    let alpha ← Config.orElse default.alpha (r.getFloat alphaName)
    let totalIterations ← Config.orElse default.totalIterations (r.getCount totalIterationsName)
    let vertexCount ← Config.orElse default.vertexCount (r.getFloat vertexCountName)
    validate ⟨alpha, totalIterations, vertexCount⟩

end PageRank

structure Ranks where
  memoryKey : String
  deriving DecidableEq

namespace Ranks

def default : Ranks := ⟨"pageRank"⟩

def implementation : String := "PageRankMapReduce"

def entryOf? (v : Vertex) : Option (Entry VertexId Float) :=
  ((v.property PageRank.property).bind Scalar.float?).map (Entry.mk v.id)

def job (r : Ranks) : Job VertexId Float VertexId Float where
  implementation := "superstep::algs::pagerank::" ++ implementation
  memoryKey := r.memoryKey
  participates stage := stage = .map
  describeKey := VertexId.describe
  map _ v := .of (entryOf? v).toList
  lift := some
  kind := .blob
  finalize results := .ok (Storable.store results)

def memoryKeyName : String := "superstep.pageRankMapReduce.memoryKey"

instance : Persist Ranks where
  store c r :=
    (r.set Config.implementationKey (.text implementation)).set memoryKeyName
      (.text c.memoryKey)
  load r := do
    r.checkImplementation implementation
    let memoryKey ← Config.orElse default.memoryKey (r.getText memoryKeyName)
    return ⟨memoryKey⟩

end Ranks

end BulkSync
