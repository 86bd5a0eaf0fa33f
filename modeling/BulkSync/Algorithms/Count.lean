import BulkSync.Config.Persist
import BulkSync.MapReduce.Registered

set_option autoImplicit false

namespace BulkSync

structure Count where
  memoryKey : String
  property : Option String
  deriving DecidableEq

namespace Count

def default : Count := ⟨"count", none⟩

def implementation : String := "CountMapReduce"

def counts (c : Count) (v : Vertex) : Bool :=
  match c.property with
  | some name => (v.property name).isSome
  | none => true

def sum (values : List Int64) : Int64 := values.foldl (· + ·) 0

def sumUnder {κ : Type} (key : κ) (values : List Int64) : Emission κ Int64 :=
  .of [⟨key, sum values⟩]

inductive Whole
  | whole
  deriving DecidableEq

instance : Ord Whole where
  compare _ _ := .eq

instance : Std.TransOrd Whole where
  eq_swap := rfl
  isLE_trans _ _ := rfl

instance : Std.LawfulEqOrd Whole where
  eq_of_compare {a b} _ := by cases a; cases b; rfl

def job (c : Count) : Job Whole Int64 Whole Int64 where
  implementation := implementation
  memoryKey := c.memoryKey
  participates _ := true
  describeKey _ := "()"
  map _ v := .of (if c.counts v then [⟨.whole, 1⟩] else [])
  combine := sumUnder
  reduce := sumUnder
  kind := .integer
  finalize
    | [] => .ok (Storable.store (0 : Int64))
    | [e] => .ok (Storable.store e.value)
    | _ => .error "count reduced to more than one value"

def memoryKeyName : String := "superstep.countMapReduce.memoryKey"
def propertyName : String := "superstep.countMapReduce.property"

instance : Persist Count where
  store c r :=
    ((r.set Config.implementationKey (.text implementation)).set memoryKeyName
      (.text c.memoryKey)).setOption propertyName (c.property.map .text)
  load r := do
    r.checkImplementation implementation
    let memoryKey ← Config.orElse default.memoryKey (r.getText memoryKeyName)
    let property ← r.getText propertyName
    return ⟨memoryKey, property⟩

end Count

end BulkSync
