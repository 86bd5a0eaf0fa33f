import Std.Data.ExtTreeMap
import BulkSync.Config.Error
import BulkSync.Scalar

set_option autoImplicit false

namespace BulkSync

structure Config where
  entries : Std.ExtTreeMap String Scalar

namespace Config

def empty : Config := ⟨∅⟩

/-- Equal floats need not be the same float, and one that is not a number equals nothing. -/
instance : BEq Config where
  beq c d := c.entries.toList == d.entries.toList

def size (c : Config) : Nat := c.entries.size

def contains (c : Config) (name : String) : Bool := c.entries.contains name

def get? (c : Config) (name : String) : Option Scalar := c.entries[name]?

def set (c : Config) (name : String) (value : Scalar) : Config :=
  ⟨c.entries.insert name value⟩

def remove (c : Config) (name : String) : Config := ⟨c.entries.erase name⟩

def setOption (c : Config) (name : String) : Option Scalar → Config
  | some value => c.set name value
  | none => c.remove name

section Typed

variable {α : Type} (c : Config) (name : String)

def getAs (kind : String) (view : Scalar → Option α) : Except Error (Option α) :=
  match c.get? name with
  | none => .ok none
  | some value =>
    match view value with
    | some a => .ok (some a)
    | none =>
      .error (.invalidParameter name ("expected " ++ kind ++ ", found " ++ value.describe))

def getText : Except Error (Option String) := c.getAs name "text" Scalar.text?

def getInteger : Except Error (Option Int64) := c.getAs name "integer" Scalar.integer?

def getFloat : Except Error (Option Float) := c.getAs name "float" Scalar.float?

def getBoolean : Except Error (Option Bool) := c.getAs name "boolean" Scalar.boolean?

def getCount : Except Error (Option UInt64) := do
  match ← c.getInteger name with
  | none => return none
  | some i =>
    if i < 0 then
      throw (.invalidParameter name s!"expected a non-negative integer, got {i.toInt}")
    else return some i.toUInt64

end Typed

def orElse {α : Type} (default : α) (found : Except Error (Option α)) : Except Error α :=
  found.map (·.getD default)

def require {α : Type} (name : String) (found : Except Error (Option α)) : Except Error α := do
  match ← found with
  | some a => return a
  | none => throw (.missingParameter name)

end Config

end BulkSync
