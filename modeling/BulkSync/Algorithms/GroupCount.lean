import BulkSync.Algorithms.Count

set_option autoImplicit false

namespace BulkSync

structure GroupCount where
  memoryKey : String
  property : String
  deriving DecidableEq

namespace GroupCount

def defaultKey : String := "groupCount"

def ofProperty (property : String) : GroupCount := ⟨defaultKey, property⟩

def implementation : String := "GroupCountMapReduce"

def entryOf? (c : GroupCount) (v : Vertex) : Option (Entry String Int64) :=
  (v.property c.property).map fun value => ⟨value.display, 1⟩

def job (c : GroupCount) : Job String Int64 String Int64 where
  implementation := implementation
  memoryKey := c.memoryKey
  participates _ := true
  describeKey := Text.quoted
  map _ v := .of (c.entryOf? v).toList
  combine := Count.sumUnder
  reduce := Count.sumUnder
  kind := .blob
  finalize results := .ok (Storable.store results)

def memoryKeyName : String := "superstep.groupCountMapReduce.memoryKey"
def propertyName : String := "superstep.groupCountMapReduce.property"

instance : Persist GroupCount where
  store c r :=
    ((r.set Config.implementationKey (.text implementation)).set memoryKeyName
      (.text c.memoryKey)).set propertyName (.text c.property)
  load r := do
    r.checkImplementation implementation
    let property ← Config.require propertyName (r.getText propertyName)
    let memoryKey ← Config.orElse defaultKey (r.getText memoryKeyName)
    return ⟨memoryKey, property⟩

end GroupCount

end BulkSync
