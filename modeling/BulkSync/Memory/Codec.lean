import BulkSync.Json.Form
import BulkSync.Memory.Error
import BulkSync.Memory.Key

set_option autoImplicit false

namespace BulkSync.Memory

def Kind.all : List Kind := [.integer, .boolean, .blob]

def Kind.index : Kind → Nat
  | .integer => 0
  | .boolean => 1
  | .blob => 2

def Kind.tag : Kind → String
  | .integer => "Integer"
  | .boolean => "Boolean"
  | .blob => "Blob"

def Kind.ofTag? (tag : String) : Option Kind := Kind.all.find? (·.tag = tag)

instance : Wire Kind where
  encode k := Wire.encodeVariant k.index
  read := do
    match ← Wire.readVariant 3 with
    | 0 => return .integer
    | 1 => return .boolean
    | _ => return .blob

instance : Wire Value where
  encode v := Wire.encode v.kind ++ match v with
    | .integer i => Wire.encode i
    | .boolean b => Wire.encode b
    | .blob bytes => Wire.encodeBytes bytes
  read := do
    match ← Wire.read (α := Kind) with
    | .integer => Value.integer <$> Wire.read
    | .boolean => Value.boolean <$> Wire.read
    | .blob => Value.blob <$> Wire.readBytes

instance : Wire Key where
  encode key := Wire.encode key.name ++ Wire.encode key.kind
  read := do
    let name ← Wire.read
    let kind ← Wire.read
    return ⟨name, kind⟩

instance : Json.Form Kind where
  write k := Json.writeText k.tag
  read
    | .string pieces => Json.text? pieces >>= Kind.ofTag?
    | j => do
      let (tag, .null) ← j.variant? | none
      Kind.ofTag? tag

def Value.writePayload : Value → List Char
  | .integer i => Json.Form.write i
  | .boolean b => Json.Form.write b
  | .blob bytes => Json.Form.write bytes

instance : Json.Form Value where
  write v := Json.writeObject [(v.kind.tag, v.writePayload)]
  read j := do
    let (tag, payload) ← j.variant?
    match ← Kind.ofTag? tag with
    | .integer => Value.integer <$> Json.Form.read payload
    | .boolean => Value.boolean <$> Json.Form.read payload
    | .blob => Value.blob <$> payload.bytes?

instance : Json.Form Key where
  write key :=
    Json.writeObject [("name", Json.Form.write key.name), ("kind", Json.Form.write key.kind)]
  read j := do
    let [name, kind] ← j.fields? ["name", "kind"] | none
    return ⟨← Json.Form.read name, ← Json.Form.read kind⟩

end BulkSync.Memory
