import BulkSync.Decimal.Style
import BulkSync.Json.Tree
import BulkSync.Text.Utf8

set_option autoImplicit false

namespace BulkSync

class Json.Form (α : Type) where
  write : α → List Char
  read : Json → Option α

namespace Json

def render {α : Type} [Form α] (a : α) : String := String.ofList (Form.write a)

def decode {α : Type} [Form α] (text : String) : Option α := parse text >>= Form.read

-- Putting forms together.
def writeArray (items : List (List Char)) : List Char :=
  '[' :: [','].intercalate items ++ [']']

def writeMember (name : String) (value : List Char) : List Char :=
  writeText name ++ ':' :: value

def writeObject (members : List (String × List Char)) : List Char :=
  '\x7b' :: [','].intercalate (members.map fun (name, value) => writeMember name value) ++ ['\x7d']

/-- The value of each of the named fields; all must be there, and none twice. -/
def fieldsOf (names : List String) (members : List (String × Json)) : Option (List Json) := do
  guard <| members.all fun (name, value) => names.contains name || value.isClean
  names.mapM fun name =>
    match members.filter (·.1 = name) with
    | [(_, value)] => some value
    | _ => none

def namedMembers (members : List (List Piece × Json)) : Option (List (String × Json)) :=
  members.mapM fun (name, value) => (text? name).map (·, value)

def fields? (names : List String) : Json → Option (List Json)
  | .array items => if items.length = names.length then some items else none
  | .object members => namedMembers members >>= fieldsOf names
  | _ => none

def variant? : Json → Option (String × Json)
  | .object [(name, value)] => (text? name).map (·, value)
  | _ => none

def int? : Json → Option Int
  | .number n => n.int?
  | _ => none

def natBelow? (size : Nat) (j : Json) : Option Nat := do
  let i ← j.int?
  if 0 ≤ i ∧ i < size then return i.toNat else none

def int64? (j : Json) : Option Int64 := do
  let i ← j.int?
  if Int64.minValue.toInt ≤ i ∧ i ≤ Int64.maxValue.toInt then return Int64.ofInt i else none

def writeInt (i : Int) : List Char :=
  if i < 0 then '-' :: Nat.toDigits 10 i.natAbs else Nat.toDigits 10 i.natAbs

def writeFloat (x : Float) : List Char := (Decimal.Style.json.format x).toList

def float? : Json → Option Float
  | .number n => n.float?
  | _ => none

/-- Bytes are numbers or the bytes of a string, in which nothing is refused. -/
def bytes? : Json → Option (List UInt8)
  | .array items => items.mapM fun item => (natBelow? UInt8.size item).map Nat.toUInt8
  | .string pieces => some <| pieces.flatMap fun
    | .plain c | .escaped c => Text.Utf8.encodeCode c.toNat
    | .half code => Text.Utf8.encodeCode code
  | _ => none

instance : Form Int64 where
  write i := writeInt i.toInt
  read := int64?

instance : Form UInt64 where
  write n := writeInt n.toNat
  read j := (natBelow? UInt64.size j).map Nat.toUInt64

instance : Form UInt32 where
  write n := writeInt n.toNat
  read j := (natBelow? UInt32.size j).map Nat.toUInt32

instance : Form UInt8 where
  write n := writeInt n.toNat
  read j := (natBelow? UInt8.size j).map Nat.toUInt8

instance : Form Float where
  write := writeFloat
  read := float?

instance : Form Bool where
  write b := (if b then "true" else "false").toList
  read
    | .boolean b => some b
    | _ => none

instance : Form String where
  write := writeText
  read
    | .string pieces => text? pieces
    | _ => none

section Composite

variable {α β : Type} [Form α] [Form β]

instance : Form (Option α) where
  write
    | none => "null".toList
    | some a => Form.write a
  read
    | .null => some none
    | j => (Form.read j).map some

instance : Form (α × β) where
  write p := writeArray [Form.write p.1, Form.write p.2]
  read
    | .array [a, b] => do return (← Form.read a, ← Form.read b)
    | _ => none

instance : Form (List α) where
  write as := writeArray (as.map Form.write)
  read
    | .array items => items.mapM Form.read
    | _ => none

end Composite

end Json

end BulkSync
