import BulkSync.Memory.Basic

set_option autoImplicit false

namespace BulkSync.Memory

inductive Read
  | value (key : String)
  | integer (key : String)
  | boolean (key : String)
  | blob (key : String)
  | contains (key : String)
  | keys
  | declared
  | iteration
  | runtime
  | frozen
  deriving DecidableEq

@[reducible] def Read.Answer : Read → Type
  | .value _ => Except Error Value
  | .integer _ => Except Error Int64
  | .boolean _ => Except Error Bool
  | .blob _ => Except Error (List UInt8)
  | .contains _ => Bool
  | .keys => List String
  | .declared => List Key
  | .iteration => Nat
  | .runtime => Duration
  | .frozen => Bool

def answer (m : Memory) : (r : Read) → r.Answer
  | .value key => m.get key
  | .integer key => m.getInteger key
  | .boolean key => m.getBoolean key
  | .blob key => m.getBlob key
  | .contains key => m.contains key
  | .keys => m.previous.keys
  | .declared => m.declared
  | .iteration => m.iteration
  | .runtime => m.runtime
  | .frozen => m.frozen

end BulkSync.Memory
