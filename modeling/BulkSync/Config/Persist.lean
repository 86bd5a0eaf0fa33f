import BulkSync.Config.Basic

set_option autoImplicit false

namespace BulkSync

class Persist (α : Type) where
  store : α → Config → Config
  load : Config → Except Config.Error α

namespace Config

def implementationKey : String := "superstep.implementation"

def checkImplementation (c : Config) (expected : String) : Except Error Unit := do
  match ← c.getText implementationKey with
  | some found =>
    if found ≠ expected then
      throw (.invalidParameter implementationKey
        s!"record was stored by `{found}`, not `{expected}`")
  | none => return ()

end Config

structure Settings where
  workers : Option UInt64
  -- Parts that a job maps apart from each other.
  partitions : Option UInt64
  maxSupersteps : Option UInt64
  deriving DecidableEq

namespace Settings

def default : Settings := ⟨none, none, none⟩

def workersKey : String := "superstep.computer.workers"
def partitionsKey : String := "superstep.computer.partitions"
def maxSuperstepsKey : String := "superstep.computer.maxSupersteps"

def noPartition (name : String) : Config.Error :=
  .invalidParameter name "at least one partition is required"

instance : Persist Settings where
  store s c :=
    let put (name : String) (value : Option UInt64) (c : Config) : Config :=
      c.setOption name (value.map fun n => .integer n.toInt64)
    put maxSuperstepsKey s.maxSupersteps
      (put partitionsKey s.partitions (put workersKey s.workers c))
  load c := do
    let workers ← c.getCount workersKey
    let partitions ← c.getCount partitionsKey
    let maxSupersteps ← c.getCount maxSuperstepsKey
    if partitions = some 0 then throw (noPartition partitionsKey)
    return ⟨workers, partitions, maxSupersteps⟩

end Settings

end BulkSync
