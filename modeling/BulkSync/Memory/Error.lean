import BulkSync.Memory.Value
import BulkSync.Wire.Basic

set_option autoImplicit false

namespace BulkSync.Memory

inductive CodecFailure
  | malformed (error : Wire.Error)
  | notBlob (kind : Kind)
  | refused (reason : String)
  deriving DecidableEq

def CodecFailure.reason : CodecFailure → String
  | .malformed error => error.message
  | .notBlob kind => s!"cannot decode a {kind.name} value"
  | .refused reason => reason

inductive Error
  | undeclared (key : String)
  | frozen (key : String)
  | absent (key : String)
  | wrongKind (key : String) (expected found : Kind)
  | codec (failure : CodecFailure)
  deriving DecidableEq

def Error.message : Error → String
  | .undeclared key => s!"`{key}` is not a declared memory compute key"
  | .frozen key => s!"memory is complete and immutable (attempted to mutate `{key}`)"
  | .absent key => s!"memory key `{key}` has no value in the previous superstep"
  | .wrongKind key expected found =>
    s!"memory key `{key}` accepts {expected.name} values, got {found.name}"
  | .codec failure => "memory blob codec failure: " ++ failure.reason

namespace Value

variable {α : Type} [Wire α]

def encode (a : α) : Value := .blob (Wire.encode a)

def decode : Value → Except Error α
  | .blob bytes => (Wire.decode bytes).mapError fun e => .codec (.malformed e)
  | v => .error (.codec (.notBlob v.kind))

end Value

end BulkSync.Memory
