import BulkSync.Config.Basic
import BulkSync.Json.Form

set_option autoImplicit false

namespace BulkSync.Config

/-- Without a tag the value itself shows its kind: an integer that a word does not hold is read
as a float. -/
def writeValue : Scalar → List Char
  | .integer i => Json.Form.write i
  | .float x => Json.Form.write x
  | .boolean b => Json.Form.write b
  | .text s => Json.Form.write s

def readValue (j : Json) : Option Scalar :=
  Scalar.boolean <$> Json.Form.read j <|> Scalar.integer <$> Json.Form.read j <|>
    Scalar.float <$> Json.Form.read j <|> Scalar.text <$> Json.Form.read j

def ofEntries (entries : List (String × Scalar)) : Config :=
  entries.foldl (fun c (name, value) => c.set name value) empty

instance : Json.Form Config where
  write c :=
    Json.writeObject (c.entries.toList.map fun (name, value) => (name, writeValue value))
  read
    | .object members => do
      let entries ← (← Json.namedMembers members).mapM fun (name, value) =>
        (readValue value).map (name, ·)
      return ofEntries entries
    | _ => none

end BulkSync.Config
