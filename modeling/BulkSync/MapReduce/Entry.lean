import BulkSync.Json.Form
import BulkSync.Memory.Error

set_option autoImplicit false

namespace BulkSync

structure Entry (κ ν : Type) where
  key : κ
  value : ν
  deriving DecidableEq

section

variable {κ ν : Type}

instance [Ord κ] [Ord ν] : Ord (Entry κ ν) where
  compare a b := (compare a.key b.key).then (compare a.value b.value)

instance [Wire κ] [Wire ν] : Wire (Entry κ ν) where
  encode e := Wire.encode e.key ++ Wire.encode e.value
  read := do
    let key ← Wire.read
    let value ← Wire.read
    return ⟨key, value⟩

instance [Json.Form κ] [Json.Form ν] : Json.Form (Entry κ ν) where
  write e := Json.writeObject [("key", Json.Form.write e.key), ("value", Json.Form.write e.value)]
  read j := do
    let [key, value] ← j.fields? ["key", "value"] | none
    return ⟨← Json.Form.read key, ← Json.Form.read value⟩

end

class Storable (α : Type) where
  kind : Memory.Kind
  store : α → Except Memory.Error Memory.Value

instance : Storable Int64 where
  kind := .integer
  store i := .ok (.integer i)

instance : Storable Bool where
  kind := .boolean
  store b := .ok (.boolean b)

instance : Storable (List UInt8) where
  kind := .blob
  store bytes := .ok (.blob bytes)

instance {κ ν : Type} [Wire κ] [Wire ν] : Storable (List (Entry κ ν)) where
  kind := .blob
  store entries := .ok (.encode entries)

end BulkSync
