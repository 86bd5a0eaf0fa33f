set_option autoImplicit false

namespace BulkSync

inductive Stage
  | map
  | combine
  | reduce
  deriving DecidableEq

namespace Stage

def all : List Stage := [.map, .combine, .reduce]

def name : Stage → String
  | .map => "map"
  | .combine => "combine"
  | .reduce => "reduce"

end Stage

inductive Multiplicity
  | exactlyOne
  | atMostOne
  | any
  deriving DecidableEq

namespace Multiplicity

def all : List Multiplicity := [.exactlyOne, .atMostOne, .any]

def default : Multiplicity := .exactlyOne

def name : Multiplicity → String
  | .exactlyOne => "ExactlyOne"
  | .atMostOne => "AtMostOne"
  | .any => "Any"

def admits (m : Multiplicity) (emitted : Nat) : Bool :=
  match m with
  | .exactlyOne => emitted = 1
  | .atMostOne => emitted ≤ 1
  | .any => true

end Multiplicity

end BulkSync
