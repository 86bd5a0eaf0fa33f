import BulkSync.Graph.Vertex

set_option autoImplicit false

namespace BulkSync

inductive Graph.Error
  | duplicate (id : VertexId)
  | missing (id : VertexId)
  deriving DecidableEq

def Graph.Error.message : Graph.Error → String
  | .duplicate id => s!"vertex {id.display} already exists"
  | .missing id => s!"vertex {id.display} does not exist"

structure Graph where
  vertices : List Vertex
  index : Std.ExtTreeMap VertexId Nat

namespace Graph

def empty : Graph := ⟨[], ∅⟩

def size (g : Graph) : Nat := g.vertices.length

def edgeCount (g : Graph) : Nat := g.vertices.foldr (fun v n => v.outDegree + n) 0

def contains (g : Graph) (id : VertexId) : Bool := g.index.contains id

def vertex? (g : Graph) (id : VertexId) : Option Vertex := g.index[id]?.bind (g.vertices[·]?)

def push (g : Graph) (v : Vertex) : Graph :=
  ⟨g.vertices ++ [v], g.index.insert v.id g.vertices.length⟩

def addVertex (g : Graph) (v : Vertex) : Except Error Unit × Graph :=
  if g.contains v.id then (.error (.duplicate v.id), g) else (.ok (), g.push v)

def update (g : Graph) (id : VertexId) (f : Vertex → Vertex) : Graph :=
  match g.index[id]? with
  | some position => { g with vertices := g.vertices.modify position f }
  | none => g

/-- Of two absent ends the target is reported. -/
def addEdge (g : Graph) (source target : VertexId) : Except Error Unit × Graph :=
  if !g.contains target then (.error (.missing target), g)
  else if !g.contains source then (.error (.missing source), g)
  else (.ok (), g.update source (·.addOutEdge target))

def withVertices (n : Nat) : Graph :=
  (List.range n).foldl (fun g i => g.push (.new ⟨i.toUInt64⟩)) empty

def endpoints (edges : List (VertexId × VertexId)) : List VertexId :=
  edges.flatMap fun (source, target) => [source, target]

def ofEdges (edges : List (VertexId × VertexId)) : Graph :=
  let bare := (endpoints edges).foldl
    (fun g id => if g.contains id then g else g.push (.new id)) empty
  edges.foldl (fun g (source, target) => g.update source (·.addOutEdge target)) bare

end Graph

end BulkSync
