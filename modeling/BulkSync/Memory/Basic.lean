import Std.Data.ExtTreeMap
import BulkSync.Config.Error
import BulkSync.Memory.Error
import BulkSync.Memory.Key

set_option autoImplicit false

namespace BulkSync

namespace Memory

inductive Role
  -- Written by vertices.
  | compute
  -- Filled after the run, by a job.
  | result
  deriving DecidableEq

structure Slot where
  kind : Kind
  role : Role
  cell : Option Value
  deriving DecidableEq

structure Duration where
  seconds : Nat
  nanos : Nat
  deriving DecidableEq

def Duration.of (seconds nanos : Nat) : Duration :=
  ⟨seconds + nanos / 1000000000, nanos % 1000000000⟩

end Memory

-- Writes go to `current`; reads answer from `previous`, which only a barrier replaces.
structure Memory where
  current : Std.ExtTreeMap String Memory.Slot
  previous : Std.ExtTreeMap String Memory.Value
  iteration : Nat
  runtime : Memory.Duration
  frozen : Bool

namespace Memory

def empty : Memory := ⟨∅, ∅, 0, ⟨0, 0⟩, false⟩

def declare (m : Memory) (key : Key) (role : Role) : Except Config.Error Memory :=
  match flaw? key.name with
  | some flaw => .error (.invalidKey key.name flaw.reason)
  | none =>
    if key.name ∈ m.current then .error (.duplicateKey key.name)
    else .ok { m with current := m.current.insert key.name ⟨key.kind, role, none⟩ }

def declareAll (m : Memory) (role : Role) : List Key → Except Config.Error Memory
  | [] => .ok m
  | key :: rest => do (← m.declare key role).declareAll role rest

def ofKeys (keys : List Key) : Except Config.Error Memory := empty.declareAll .compute keys

def registerResult (m : Memory) (key : Key) : Except Config.Error Memory := m.declare key .result

def declared (m : Memory) : List Key :=
  m.current.toList.map fun (name, slot) => ⟨name, slot.kind⟩

def size (m : Memory) : Nat := m.previous.size

def display (m : Memory) : String := s!"memory[size:{m.size}]"

def entries (m : Memory) : List (String × Value) := m.previous.toList

def contains (m : Memory) (key : String) : Bool := m.previous.contains key

def isInitial (m : Memory) : Bool := m.iteration = 0

def get (m : Memory) (key : String) : Except Error Value :=
  match m.previous[key]? with
  | some v => .ok v
  | none => .error (.absent key)

structure View (α : Type) where
  kind : Kind
  read : Value → Option α
  write : α → Value

namespace View

def integer : View Int64 := ⟨.integer, Value.integer?, .integer⟩

def boolean : View Bool := ⟨.boolean, Value.boolean?, .boolean⟩

def blob : View (List UInt8) := ⟨.blob, Value.blob?, .blob⟩

def readAs {α : Type} (view : View α) (key : String) (v : Value) : Except Error α :=
  match view.read v with
  | some a => .ok a
  | none => .error (.wrongKind key view.kind v.kind)

end View

def getAs {α : Type} (view : View α) (m : Memory) (key : String) : Except Error α :=
  m.get key >>= view.readAs key

def getInteger (m : Memory) (key : String) : Except Error Int64 := m.getAs .integer key

def getBoolean (m : Memory) (key : String) : Except Error Bool := m.getAs .boolean key

def getBlob (m : Memory) (key : String) : Except Error (List UInt8) := m.getAs .blob key

def getDecoded (α : Type) [Wire α] (m : Memory) (key : String) : Except Error α :=
  m.get key >>= Value.decode

end Memory

end BulkSync
