set_option autoImplicit false

namespace BulkSync

namespace Json

-- What is read keeps what may still be refused: control characters as they are, and lone halves.
inductive Piece
  | plain (c : Char)
  | escaped (c : Char)
  -- A surrogate that its other half does not follow.
  | half (code : Nat)
  deriving DecidableEq

structure Number where
  negative : Bool
  mantissa : Nat
  exponent : Int
  integral : Bool
  deriving DecidableEq

end Json

inductive Json
  | null
  | boolean (b : Bool)
  | number (n : Json.Number)
  | string (pieces : List Json.Piece)
  | array (items : List Json)
  | object (members : List (List Json.Piece × Json))

namespace Json

def Piece.isControl : Piece → Bool
  | .plain c => c.val < 0x20
  | _ => false

def Piece.char? : Piece → Option Char
  | .plain c => if c.val < 0x20 then none else some c
  | .escaped c => some c
  | .half _ => none

def text? (pieces : List Piece) : Option String :=
  (pieces.mapM Piece.char?).map String.ofList

mutual

/-- May the value stand where nobody reads it? Halves of pairs are let through there. -/
def isClean : Json → Bool
  | .null | .boolean _ | .number _ => true
  | .string pieces => !pieces.any Piece.isControl
  | .array items => areClean items
  | .object members => areCleanMembers members

def areClean : List Json → Bool
  | [] => true
  | item :: rest => isClean item && areClean rest

def areCleanMembers : List (List Piece × Json) → Bool
  | [] => true
  | (name, value) :: rest =>
    !name.any Piece.isControl && isClean value && areCleanMembers rest

end

end Json

end BulkSync
