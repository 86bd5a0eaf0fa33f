import Std.Data.ExtTreeMap
import BulkSync.MapReduce.Entry

set_option autoImplicit false

namespace BulkSync

abbrev Groups (κ ν : Type) [Ord κ] := Std.ExtTreeMap κ (List ν)

namespace Groups

variable {κ ν : Type} [Ord κ] [Std.TransOrd κ]

def ofEntries (entries : List (Entry κ ν)) : Groups κ ν :=
  entries.foldr
    (fun e groups => groups.alter e.key fun values => some (e.value :: values.getD [])) ∅

def valuesOf (groups : Groups κ ν) (key : κ) : List ν := groups[key]?.getD []

theorem valuesOf_ofEntries (entries : List (Entry κ ν)) (key : κ) :
    (ofEntries entries).valuesOf key =
      (entries.filter fun e => compare e.key key = .eq).map Entry.value := by
  induction entries with
  | nil => simp [ofEntries, valuesOf]
  | cons e rest ih =>
    have step : ofEntries (e :: rest) =
        (ofEntries rest).alter e.key fun values => some (e.value :: values.getD []) := rfl
    rw [step, valuesOf, Std.ExtTreeMap.getElem?_alter]
    by_cases same : compare e.key key = .eq
    next =>
      rw [if_pos same, Std.ExtTreeMap.getElem?_congr same]
      simpa [valuesOf, same] using ih
    next => simpa [valuesOf, same] using ih

def append (a b : Groups κ ν) : Groups κ ν :=
  b.foldl (fun groups key values => groups.alter key fun before =>
    some (before.getD [] ++ values)) a

def shuffle (parts : List (Groups κ ν)) : Groups κ ν := parts.foldl append ∅

end Groups

end BulkSync
