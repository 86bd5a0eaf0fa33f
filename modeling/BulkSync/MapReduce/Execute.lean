import BulkSync.MapReduce.Groups
import BulkSync.MapReduce.Job
import BulkSync.MapReduce.Parts

set_option autoImplicit false

namespace BulkSync.Job

variable {κ ν ρ ω : Type} [Ord κ] [Std.TransOrd κ] (job : Job κ ν ρ ω)

def entriesOf {α β : Type} (stage : Stage) (e : Emission α β) : Except Failure (List (Entry α β)) :=
  match e.outcome with
  | .ok _ => .ok e.entries
  | .error cause => .error (.jobStage job.name stage cause)

def mapAll (seen : List Vertex) : List Vertex → Except Failure (List (Entry κ ν))
  | [] => .ok []
  | v :: rest => do
    let entries ← job.entriesOf .map (job.map seen v)
    return entries ++ (← mapAll (v :: seen) rest)

def combineAll (groups : Groups κ ν) : Except Failure (List (Entry κ ν)) := do
  let combined ← groups.toList.mapM fun (key, values) =>
    job.entriesOf .combine (job.combine key values)
  return combined.flatten

def mapPart (part : List Vertex) : Except Failure (Groups κ ν) := do
  let groups := Groups.ofEntries (← job.mapAll [] part)
  if job.participates .combine then return Groups.ofEntries (← job.combineAll groups)
  else return groups

def shuffled (vertices : List Vertex) (parts : Nat) : Except Failure (Groups κ ν) := do
  return Groups.shuffle (← (splitInto parts vertices).mapM job.mapPart)

def reduceOne (key : κ) (values : List ν) : Except Failure (List (Entry ρ ω)) := do
  let entries ← job.entriesOf .reduce (job.reduce key values)
  if job.multiplicity.admits entries.length then return entries
  else throw <| .brokenContract job.name <|
    s!"reduce for key {job.describeKey key} emitted {entries.length} pairs, " ++
      s!"contract is {job.multiplicity.name}"

def reduceAll (groups : Groups κ ν) : Except Failure (List (Entry ρ ω)) := do
  return (← groups.toList.mapM fun (key, values) => job.reduceOne key values).flatten

def liftOne (e : Entry κ ν) : Except Failure (Entry ρ ω) :=
  match job.lift e with
  | some result => .ok result
  | none => .error (.brokenContract job.name
      "job skips the reduce stage but cannot lift mapped pairs")

def liftAll (groups : Groups κ ν) : Except Failure (List (Entry ρ ω)) :=
  (groups.toList.flatMap fun (key, values) => values.map (Entry.mk key)).mapM job.liftOne

def noMapStage (name : String) : Failure :=
  .config (.invalidJob name "job does not participate in the map stage")

def execute (vertices : List Vertex) (parts : Nat) : Except Failure (List (Entry ρ ω)) :=
  if !job.participates .map then .error (noMapStage job.name)
  else do
    let groups ← job.shuffled vertices parts
    if job.participates .reduce then job.reduceAll groups else job.liftAll groups

def conclude (results : List (Entry ρ ω)) : Except Failure Memory.Value :=
  match job.finalize results with
  | .error reason => .error (.brokenContract job.name reason)
  | .ok stored => stored.mapError .memory

def run (vertices : List Vertex) (parts : Nat) : Except Failure Memory.Value :=
  job.execute vertices parts >>= job.conclude

end BulkSync.Job
