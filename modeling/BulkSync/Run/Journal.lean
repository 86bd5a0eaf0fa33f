import BulkSync.Run.Basic

set_option autoImplicit false

namespace BulkSync.Run

variable {M : Type}

def duplicateLines (jobs : List Registered) : List Journal.Line :=
  let step (state : List Registered × List Journal.Line) (job : Registered) :=
    let (kept, lines) := state
    if kept.any (·.same job) then
      (kept, lines ++ [⟨.warn, "ignoring duplicate registration of " ++ job.describe⟩])
    else (kept ++ [job], lines)
  (jobs.foldl step ([], [])).2

def lostLine (target : VertexId) (count : Nat) : Journal.Line :=
  ⟨.warn, s!"dropping {count} message(s) addressed to unknown vertex {target.display}"⟩

def stepLines (r : Run M) : List Journal.Line :=
  if r.phase ≠ .execute then []
  else
    let s := r.superstep
    let number := r.memory.iteration
    match s.failure with
    | some failure => [⟨.warn, s!"superstep {number} aborted: {failure.message}"⟩]
    | none =>
      let flight := (s.shared.outbox.deliver r.graph.contains).size
      (s.shared.outbox.lost r.graph.contains).map (fun (target, count) => lostLine target count) ++
        [⟨.debug,
          s!"superstep {number}: {s.active} active vertices, {flight} messages in flight"⟩]

def haltLines : (fuel : Nat) → Run M → List Journal.Line
  | 0, _ => []
  | fuel + 1, r =>
    r.stepLines ++ match r.step with
      | (.ok .continues, r) => haltLines fuel r
      | _ => []

def jobLines (vertices : List Vertex) (parts : Nat) (m : Memory) :
    List Registered → List Journal.Line
  | [] => []
  | job :: rest =>
    job.journal vertices parts ++
      match job.run vertices parts with
      | .error _ => []
      | .ok value =>
        ⟨.debug, s!"{job.describe} finished over {parts} partition(s): {value.display}"⟩ ::
          match m.storeResult job.memoryKey value with
          | .ok m => jobLines vertices parts m rest
          | .error _ => []

def finishLines (r : Run M) : List Journal.Line :=
  if r.phase ≠ .halted then []
  else jobLines r.graph.vertices r.partCount r.memory r.jobs

end BulkSync.Run
