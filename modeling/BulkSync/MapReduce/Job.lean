import BulkSync.Failure
import BulkSync.MapReduce.Entry
import BulkSync.Memory.Key

set_option autoImplicit false

namespace BulkSync

structure Emission (κ ν : Type) where
  entries : List (Entry κ ν)
  outcome : Except Cause Unit

namespace Emission

variable {κ ν : Type}

def of (entries : List (Entry κ ν)) : Emission κ ν := ⟨entries, .ok ()⟩

def fail (cause : Cause) : Emission κ ν := ⟨[], .error cause⟩

end Emission

/-- A job over the vertices of a run, from keys `κ` and values `ν` to results `ρ` and `ω`. Each
part of the vertices is mapped by a job of its own, which may remember what it has mapped. -/
structure Job (κ ν ρ ω : Type) where
  -- What kind of job it is: a name, with a path in front and parameters behind it.
  implementation : String
  memoryKey : String
  participates : Stage → Bool
  describeKey : κ → String
  -- `seen` holds the vertices mapped before, the last one first.
  map : (seen : List Vertex) → Vertex → Emission κ ν
  combine : κ → List ν → Emission κ ν := fun key values => .of (values.map (Entry.mk key))
  reduce : κ → List ν → Emission ρ ω :=
    fun _ _ => .fail (.other s!"{implementation} does not implement reduce")
  multiplicity : Multiplicity := .default
  -- How an entry becomes a result when nothing is reduced.
  lift : Entry κ ν → Option (Entry ρ ω) := fun _ => none
  kind : Memory.Kind
  finalize : List (Entry ρ ω) → Except String (Except Memory.Error Memory.Value)

def shortName (implementation : String) : String :=
  let base := implementation.toList.takeWhile (· ≠ '<')
  String.ofList (base.reverse.takeWhile (· ≠ ':')).reverse

namespace Job

variable {κ ν ρ ω : Type}

def name (job : Job κ ν ρ ω) : String := shortName job.implementation

def resultKey (job : Job κ ν ρ ω) : Memory.Key := ⟨job.memoryKey, job.kind⟩

end Job

end BulkSync
