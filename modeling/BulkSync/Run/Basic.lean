import BulkSync.Config.Persist
import BulkSync.Graph.Basic
import BulkSync.MapReduce.Registered
import BulkSync.Memory.Barrier
import BulkSync.Run.Superstep

set_option autoImplicit false

namespace BulkSync

structure Host where
  -- The time that has passed at the end of a superstep.
  clock : Nat → Memory.Duration
  -- The threads of a pool of which so many are asked; 0 leaves their number to the host.
  threads : Nat → Nat

-- No time passes, and a pool has the threads that are asked for, or one.
def Host.still : Host := ⟨fun _ => ⟨0, 0⟩, max 1⟩

structure Run (M : Type) where
  graph : Graph
  program : VertexProgram M
  jobs : List Registered
  settings : Settings
  host : Host
  memory : Memory
  inbox : Inbox M
  phase : Phase

namespace Run

variable {M : Type}

def distinct (jobs : List Registered) : List Registered :=
  jobs.foldl (fun kept job => if kept.any (·.same job) then kept else kept ++ [job]) []

def checkJobs (jobs : List Registered) : Except Failure Unit :=
  match jobs.find? (!·.participates .map) with
  | some job => .error (Job.noMapStage job.name)
  | none => .ok ()

def checkSettings (settings : Settings) : Except Failure Unit :=
  if settings.partitions = some 0 then .error (.config (Settings.noPartition "partitions"))
  else .ok ()

def registerAll (m : Memory) : List Registered → Except Config.Error Memory
  | [] => .ok m
  | job :: rest => do registerAll (← m.registerResult job.resultKey) rest

def declareKeys (keys : List Memory.Key) (jobs : List Registered) : Except Config.Error Memory := do
  registerAll (← Memory.ofKeys keys) jobs

def start (graph : Graph) (program : VertexProgram M) (jobs : List Registered)
    (settings : Settings) (host : Host) : Except Failure (Run M) := do
  let jobs := distinct jobs
  checkJobs jobs
  checkSettings settings
  let memory ← (declareKeys program.keys jobs).mapError .config
  match program.setup.runOn memory with
  | (.error cause, _) => throw (.setup cause)
  | (.ok _, memory) =>
    return { graph, program, jobs, settings, host, memory := memory.commit, inbox := .empty,
             phase := .execute }

inductive Outcome
  | continues
  | halted
  deriving DecidableEq

def superstep (r : Run M) : Superstep M :=
  .run r.program r.inbox r.memory.iteration r.graph.vertices ⟨r.memory, .empty⟩

def overwrite (r : Run M) (s : Superstep M) : Run M :=
  { r with
    graph := { r.graph with vertices := s.vertices }
    memory := s.shared.memory }

/-- Takes a superstep back: its writes, and all that happened to a vertex since the snapshot. -/
def abort (r : Run M) (snapshot : List Vertex) : Run M :=
  { r with
    graph := { r.graph with vertices := snapshot }
    memory := r.memory.rollback
    phase := .failed }

def cross (r : Run M) (outbox : Outbox M) : Run M :=
  { r with
    memory := r.memory.commit
    inbox := outbox.deliver r.graph.contains }

def halt (r : Run M) (number : Nat) : Except Failure Outcome × Run M :=
  match r.memory.setRuntime (r.host.clock number) with
  | .error e => (.error (.memory e), r)
  | .ok memory => (.ok .halted, { r with memory := memory.complete, phase := .halted })

def checkLimit (r : Run M) : Except Failure Outcome × Run M :=
  match r.settings.maxSupersteps with
  | some limit =>
    if limit.toNat ≤ r.memory.iteration then
      (.error (.superstepLimit limit), { r with phase := .failed })
    else (.ok .continues, r)
  | none => (.ok .continues, r)

def conclude (r : Run M) (number : Nat) :
    Except Cause Bool × Memory → Except Failure Outcome × Run M
  | (.error cause, memory) =>
    (.error (.terminate number cause), { r with memory, phase := .failed })
  | (.ok true, memory) => halt { r with memory := memory.advance } number
  | (.ok false, memory) => checkLimit { r with memory := memory.advance }

section Ask

-- How the termination test is asked is left open, so that a step can note down what it asks.
variable {m : Type → Type} [Monad m] (ask : Memory → m (Except Cause Bool × Memory))

/-- What follows once no vertex is at work any more. -/
def settleBy (r : Run M) (s : Superstep M) : m (Except Failure Outcome × Run M) :=
  let snapshot := r.graph.vertices
  let after := r.overwrite s
  match s.failure with
  | some failure => return (.error failure, after.abort snapshot)
  | none => do
    let crossed := after.cross s.shared.outbox
    return crossed.conclude r.memory.iteration (← ask crossed.memory)

def stepBy (work : Run M → Superstep M) (r : Run M) : m (Except Failure Outcome × Run M) :=
  if r.phase ≠ .execute then return (.error (.wrongPhase "step" r.phase), r)
  else r.settleBy ask (work r)

end Ask

def stepWith (work : Run M → Superstep M) (r : Run M) : Except Failure Outcome × Run M :=
  Id.run (r.stepBy (fun memory => return r.program.terminate.runOn memory) work)

def step (r : Run M) : Except Failure Outcome × Run M := r.stepWith superstep

def runToHalt : (fuel : Nat) → Run M → Option (Except Failure Unit) × Run M
  | 0, r => (none, r)
  | fuel + 1, r =>
    match r.step with
    | (.error failure, r) => (some (.error failure), r)
    | (.ok .halted, r) => (some (.ok ()), r)
    | (.ok .continues, r) => runToHalt fuel r

structure Result where
  memory : Memory
  graph : Graph

def storeAll (vertices : List Vertex) (parts : Nat) (m : Memory) :
    List Registered → Except Failure Memory
  | [] => .ok m
  | job :: rest => do
    let value ← job.run vertices parts
    let m ← (m.storeResult job.memoryKey value).mapError .memory
    storeAll vertices parts m rest

def partCount (r : Run M) : Nat :=
  max 1 <| match r.settings.partitions with
    | some n => n.toNat
    | none => r.host.threads (r.settings.workers.getD 0).toNat

def finish (r : Run M) : Except Failure Result :=
  if r.phase ≠ .halted then .error (.wrongPhase "finish" r.phase)
  else do
    let memory ← storeAll r.graph.vertices r.partCount r.memory r.jobs
    return ⟨memory, r.graph⟩

end Run

end BulkSync
