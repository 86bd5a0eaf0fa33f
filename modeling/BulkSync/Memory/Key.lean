import BulkSync.Memory.Value
import BulkSync.Text.Blank

set_option autoImplicit false

namespace BulkSync.Memory

structure Key where
  name : String
  kind : Kind
  deriving DecidableEq

instance : Ord Key where
  compare a b := (compare a.name b.name).then (compare a.kind b.kind)

inductive Flaw
  | empty
  | surroundingBlank
  | control
  | reserved
  deriving DecidableEq

def Flaw.reason : Flaw → String
  | .empty => "key must not be empty"
  | .surroundingBlank => "key must not have leading or trailing whitespace"
  | .control => "key must not contain control characters"
  | .reserved => "keys starting with `~` are reserved"

def flaw? (name : String) : Option Flaw :=
  let cs := name.toList
  if cs = [] then some .empty
  else if cs.head?.any Text.isBlank || cs.getLast?.any Text.isBlank then some .surroundingBlank
  else if cs.any Text.isControl then some .control
  else if cs.head? = some '~' then some .reserved
  else none

end BulkSync.Memory
