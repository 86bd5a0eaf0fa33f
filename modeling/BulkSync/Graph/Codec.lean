import BulkSync.Graph.Vertex
import BulkSync.Json.Form
import BulkSync.Wire.Basic

set_option autoImplicit false

namespace BulkSync

instance : Wire Scalar where
  encode
    | .integer i => Wire.encodeVariant 0 ++ Wire.encode i
    | .float x => Wire.encodeVariant 1 ++ Wire.encode x
    | .boolean b => Wire.encodeVariant 2 ++ Wire.encode b
    | .text s => Wire.encodeVariant 3 ++ Wire.encode s
  read := do
    match ← Wire.readVariant 4 with
    | 0 => Scalar.integer <$> Wire.read
    | 1 => Scalar.float <$> Wire.read
    | 2 => Scalar.boolean <$> Wire.read
    | _ => Scalar.text <$> Wire.read

instance : Json.Form Scalar where
  write
    | .integer i => Json.writeObject [("Integer", Json.Form.write i)]
    | .float x => Json.writeObject [("Float", Json.Form.write x)]
    | .boolean b => Json.writeObject [("Boolean", Json.Form.write b)]
    | .text s => Json.writeObject [("Text", Json.Form.write s)]
  read j := do
    match ← j.variant? with
    | ("Integer", payload) => Scalar.integer <$> Json.Form.read payload
    | ("Float", payload) => Scalar.float <$> Json.Form.read payload
    | ("Boolean", payload) => Scalar.boolean <$> Json.Form.read payload
    | ("Text", payload) => Scalar.text <$> Json.Form.read payload
    | _ => none

instance : Wire VertexId where
  encode id := Wire.encode id.val
  read := VertexId.mk <$> Wire.read

instance : Json.Form VertexId where
  write id := Json.Form.write id.val
  read j := VertexId.mk <$> Json.Form.read j

namespace Vertex

-- Of a name that is given twice the last value stays.
def propertiesOf {α : Type} (entries : List (String × α)) : Std.ExtTreeMap String α :=
  entries.foldl (fun map (name, value) => map.insert name value) ∅

instance : Wire Vertex where
  encode v :=
    Wire.encode v.id ++ Wire.encode v.label ++ Wire.encode v.properties.toList ++
      Wire.encode v.outEdges ++ Wire.encode v.halted
  read := do
    let id ← Wire.read
    let label ← Wire.read
    let properties ← Wire.read
    let outEdges ← Wire.read
    let halted ← Wire.read
    return ⟨id, label, propertiesOf properties, outEdges, halted⟩

def writeProperties (v : Vertex) : List Char :=
  Json.writeObject (v.properties.toList.map fun (name, value) => (name, Json.Form.write value))

def readProperties : Json → Option (Std.ExtTreeMap String Scalar)
  | .object members => do
    let entries ← (← Json.namedMembers members).mapM fun (name, value) =>
      (Json.Form.read value).map (name, ·)
    return propertiesOf entries
  | _ => none

instance : Json.Form Vertex where
  write v :=
    Json.writeObject [("id", Json.Form.write v.id), ("label", Json.Form.write v.label),
      ("properties", v.writeProperties), ("out_edges", Json.Form.write v.outEdges),
      ("halted", Json.Form.write v.halted)]
  read j := do
    let [id, label, properties, outEdges, halted] ←
      j.fields? ["id", "label", "properties", "out_edges", "halted"] | none
    return ⟨← Json.Form.read id, ← Json.Form.read label, ← readProperties properties,
      ← Json.Form.read outEdges, ← Json.Form.read halted⟩

end Vertex

end BulkSync
