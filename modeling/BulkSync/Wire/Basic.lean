import BulkSync.Text.Utf8

set_option autoImplicit false

namespace BulkSync

inductive Wire.Error
  -- A number, a flag, a tag or a length is cut off.
  | cut
  -- A text or a byte string is shorter than its length says.
  | short
  | badFlag (byte : UInt8)
  | badTag (byte : UInt8)
  | badVariant (found count : Nat)
  | badText (error : Text.Utf8.Error)
  deriving DecidableEq

def Wire.Error.message : Wire.Error → String
  | .cut => "io error: unexpected end of file"
  | .short => "io error: "
  | .badFlag byte => s!"invalid u8 while decoding bool, expected 0 or 1, found {byte.toNat}"
  | .badTag byte => s!"tag for enum is not valid, found {byte.toNat}"
  | .badVariant found count =>
    s!"invalid value: integer `{found}`, expected variant index 0 <= i < {count}"
  | .badText error => "string is not valid utf8: " ++ error.message

abbrev Wire.Reader := StateT (List UInt8) (Except Wire.Error)

class Wire (α : Type) where
  encode : α → List UInt8
  read : Wire.Reader α

namespace Wire

def decode {α : Type} [Wire α] (bytes : List UInt8) : Except Error α :=
  (read (α := α) bytes).map Prod.fst

def littleEndian : Nat → Nat → List UInt8
  | 0, _ => []
  | width + 1, n => n.toUInt8 :: littleEndian width (n / 256)

def readNat : Nat → Reader Nat
  | 0, bytes => .ok (0, bytes)
  | _ + 1, [] => .error .cut
  | width + 1, b :: rest => do
    let (high, rest) ← readNat width rest
    return (b.toNat + 256 * high, rest)

def readByte : Reader UInt8 := Nat.toUInt8 <$> readNat 1

def encodeLength (n : Nat) : List UInt8 := littleEndian 8 n

def readLength : Reader Nat := readNat 8

def encodeVariant (index : Nat) : List UInt8 := littleEndian 4 index

def readVariant (count : Nat) : Reader Nat := do
  let index ← readNat 4
  if index < count then return index else throw (.badVariant index count)

def encodeBytes (bytes : List UInt8) : List UInt8 := encodeLength bytes.length ++ bytes

def take (n : Nat) : Reader (List UInt8) := fun bytes =>
  if n ≤ bytes.length then .ok (bytes.take n, bytes.drop n) else .error .short

def readBytes : Reader (List UInt8) := readLength >>= take

def readMany {α : Type} (one : Reader α) : Nat → Reader (List α)
  | 0 => return []
  | n + 1 => do
    let a ← one
    let rest ← readMany one n
    return a :: rest

instance : Wire UInt8 where
  encode b := [b]
  read := readByte

instance : Wire UInt32 where
  encode n := littleEndian 4 n.toNat
  read := Nat.toUInt32 <$> readNat 4

instance : Wire UInt64 where
  encode n := littleEndian 8 n.toNat
  read := Nat.toUInt64 <$> readNat 8

instance : Wire Int64 where
  encode i := littleEndian 8 i.toUInt64.toNat
  read := (fun n => n.toUInt64.toInt64) <$> readNat 8

instance : Wire Float where
  encode x := littleEndian 8 x.toBits.toNat
  read := (fun n => Float.ofBits n.toUInt64) <$> readNat 8

instance : Wire Bool where
  encode b := [if b then 1 else 0]
  read := do
    match ← readByte with
    | 0 => return false
    | 1 => return true
    | b => throw (.badFlag b)

instance : Wire String where
  encode s := encodeBytes (Text.Utf8.encode s.toList)
  read := do
    match Text.Utf8.decode (← readBytes) with
    | .ok cs => return String.ofList cs
    | .error e => throw (.badText e)

section Composite

variable {α β : Type} [Wire α] [Wire β]

instance : Wire (Option α) where
  encode
    | none => [0]
    | some a => 1 :: encode a
  read := do
    match ← readByte with
    | 0 => return none
    | 1 => some <$> read
    | b => throw (.badTag b)

instance : Wire (α × β) where
  encode p := encode p.1 ++ encode p.2
  read := do
    let a ← read
    let b ← read
    return (a, b)

instance : Wire (List α) where
  encode as := encodeLength as.length ++ as.flatMap encode
  read := readLength >>= readMany read

end Composite

end Wire

end BulkSync
