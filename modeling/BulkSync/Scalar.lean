import BulkSync.Decimal.Style
import BulkSync.Text.Quoted

set_option autoImplicit false

namespace BulkSync

inductive Scalar
  | integer (i : Int64)
  | float (x : Float)
  | boolean (b : Bool)
  | text (s : String)
  deriving BEq

namespace Scalar

def integer? : Scalar → Option Int64
  | .integer i => some i
  | _ => none

def widen (i : Int64) : Float := Float.ofInt i.toInt

def float? : Scalar → Option Float
  | .float x => some x
  | .integer i => some (widen i)
  | _ => none

def boolean? : Scalar → Option Bool
  | .boolean b => some b
  | _ => none

def text? : Scalar → Option String
  | .text s => some s
  | _ => none

def boolText (b : Bool) : String := if b then "true" else "false"

def display : Scalar → String
  | .integer i => toString i.toInt
  | .float x => Decimal.Style.plain.format x
  | .boolean b => boolText b
  | .text s => s

def describe : Scalar → String
  | .integer i => "Integer(" ++ toString i.toInt ++ ")"
  | .float x => "Float(" ++ Decimal.Style.kinded.format x ++ ")"
  | .boolean b => "Boolean(" ++ boolText b ++ ")"
  | .text s => "Text(" ++ Text.quoted s ++ ")"

end Scalar

end BulkSync
