import Std.Data.ExtTreeMap
import BulkSync.Scalar

set_option autoImplicit false

namespace BulkSync

structure VertexId where
  val : UInt64
  deriving DecidableEq

namespace VertexId

instance : Ord VertexId where
  compare a b := compare a.val b.val

instance : Std.TransOrd VertexId where
  eq_swap := Std.OrientedOrd.eq_swap (α := UInt64)
  isLE_trans := Std.TransOrd.isLE_trans (α := UInt64)

instance : Std.LawfulEqOrd VertexId where
  eq_of_compare h := congrArg VertexId.mk (Std.LawfulEqOrd.eq_of_compare (α := UInt64) h)

def display (id : VertexId) : String := toString id.val.toNat

def describe (id : VertexId) : String := "VertexId(" ++ id.display ++ ")"

end VertexId

structure Vertex where
  id : VertexId
  label : String
  properties : Std.ExtTreeMap String Scalar
  outEdges : List VertexId
  halted : Bool

namespace Vertex

def new (id : VertexId) : Vertex := ⟨id, "vertex", ∅, [], false⟩

instance : BEq Vertex where
  beq v w :=
    v.id = w.id && v.label = w.label && v.properties.toList == w.properties.toList &&
      v.outEdges = w.outEdges && v.halted == w.halted

def withLabel (v : Vertex) (label : String) : Vertex := { v with label }

def property (v : Vertex) (key : String) : Option Scalar := v.properties[key]?

def setProperty (v : Vertex) (key : String) (value : Scalar) : Vertex :=
  { v with properties := v.properties.insert key value }

def removeProperty (v : Vertex) (key : String) : Vertex :=
  { v with properties := v.properties.erase key }

def outDegree (v : Vertex) : Nat := v.outEdges.length

def addOutEdge (v : Vertex) (target : VertexId) : Vertex :=
  { v with outEdges := v.outEdges ++ [target] }

def voteToHalt (v : Vertex) : Vertex := { v with halted := true }

def activate (v : Vertex) : Vertex := { v with halted := false }

end Vertex

end BulkSync
