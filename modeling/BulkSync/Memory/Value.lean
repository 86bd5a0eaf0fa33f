set_option autoImplicit false

namespace BulkSync.Memory

inductive Kind
  | integer
  | boolean
  | blob
  deriving DecidableEq, Ord

def Kind.name : Kind → String
  | .integer => "integer"
  | .boolean => "boolean"
  | .blob => "blob"

inductive Value
  | integer (i : Int64)
  | boolean (b : Bool)
  | blob (bytes : List UInt8)
  deriving DecidableEq

namespace Value

def kind : Value → Kind
  | .integer _ => .integer
  | .boolean _ => .boolean
  | .blob _ => .blob

def integer? : Value → Option Int64
  | .integer i => some i
  | _ => none

def boolean? : Value → Option Bool
  | .boolean b => some b
  | _ => none

def blob? : Value → Option (List UInt8)
  | .blob bytes => some bytes
  | _ => none

def display : Value → String
  | .integer i => toString i.toInt
  | .boolean b => if b then "true" else "false"
  | .blob bytes => s!"blob[{bytes.length} bytes]"

theorem kind_eq_integer_iff {v : Value} : v.kind = .integer ↔ ∃ i, v = .integer i := by
  cases v <;> simp [kind]

theorem kind_eq_boolean_iff {v : Value} : v.kind = .boolean ↔ ∃ b, v = .boolean b := by
  cases v <;> simp [kind]

theorem kind_eq_blob_iff {v : Value} : v.kind = .blob ↔ ∃ bytes, v = .blob bytes := by
  cases v <;> simp [kind]

end Value

end BulkSync.Memory
