import BulkSync.Memory.Write

set_option autoImplicit false

namespace BulkSync.Memory

def written (m : Memory) : Std.ExtTreeMap String Value :=
  m.current.filterMap fun _ slot => slot.cell

def commit (m : Memory) : Memory := { m with previous := m.written }

def rollback (m : Memory) : Memory :=
  { m with current := m.current.map fun key slot => { slot with cell := m.previous[key]? } }

def advance (m : Memory) : Memory := { m with iteration := m.iteration + 1 }

def setRuntime (m : Memory) (runtime : Duration) : Except Error Memory :=
  if m.frozen then .error (.frozen "runtime") else .ok { m with runtime }

/-- The end of a run. The counter goes back over the advance made after the last termination
check, and the written values move to the readable side for good. -/
def complete (m : Memory) : Memory :=
  { m with
    current := m.current.map fun _ slot => { slot with cell := none }
    previous := m.written
    iteration := m.iteration - 1
    frozen := true }

/-- Puts a job's result where it is read; the only write that completed memory takes. -/
def storeResult (m : Memory) (key : String) (v : Value) : Except Error Memory :=
  match m.current[key]? with
  | some slot =>
    if slot.role ≠ .result then .error (.undeclared key)
    else if slot.kind ≠ v.kind then .error (.wrongKind key slot.kind v.kind)
    else .ok { m with previous := m.previous.insert key v }
  | none => .error (.undeclared key)

end BulkSync.Memory
