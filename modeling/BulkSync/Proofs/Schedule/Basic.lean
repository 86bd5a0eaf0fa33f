import BulkSync.Proofs.Program.Transcript
import BulkSync.Run.Basic

set_option autoImplicit false

namespace BulkSync

inductive Task (M : Type) where
  | waiting (v : Vertex)
  -- Halted, and nobody wrote to it.
  | passed (v : Vertex)
  | executing (v : Vertex) (rest : Action M (Except Cause Unit × Vertex))

namespace Task

variable {M : Type}

def isWaiting : Task M → Bool
  | waiting _ => true
  | _ => false

def isActive : Task M → Bool
  | executing _ _ => true
  | _ => false

def vertex : Task M → Vertex
  | waiting v | passed v => v
  | executing _ (.done (_, w)) => w
  | executing v _ => v

def hasFailed : Task M → Bool
  | executing _ (.done (.error _, _)) => true
  | _ => false

def failure? (number : Nat) : Task M → Option Failure
  | executing v (.done (.error cause, _)) => some (.vertex v.id number cause)
  | _ => none

def start (program : VertexProgram M) (inbox : Inbox M) (v : Vertex) : Task M :=
  let v := inbox.wake v
  if v.halted then passed v else executing v (program.execute v (inbox.messages v.id))

end Task

structure Pool (M : Type) where
  tasks : List (Task M)
  shared : Shared M
  calls : List (Nat × Call M)

def Action.next? {M α : Type} : Action M α → Shared M → Option (Call M × Action M α × Shared M)
  | done _, _ => none
  | read r next, s => some (.read r (s.memory.answer r), next (s.memory.answer r), s)
  | write w next, s =>
    let (answer, memory) := s.memory.write w
    some (.write w answer, next answer, { s with memory })
  | send target message next, s =>
    some (.send target message, next, { s with outbox := s.outbox.send target message })

namespace Pool

variable {M : Type}

def opened (vertices : List Vertex) (memory : Memory) : Pool M :=
  ⟨vertices.map .waiting, ⟨memory, .empty⟩, []⟩

def failures (p : Pool M) (number : Nat) : List Failure := p.tasks.filterMap (·.failure? number)

def failed (p : Pool M) : Bool := p.tasks.any Task.hasFailed

section Workers

variable (program : VertexProgram M) (inbox : Inbox M)

def turn (p : Pool M) (i : Nat) : Pool M :=
  match p.tasks[i]? with
  | some (.waiting v) => { p with tasks := p.tasks.set i (.start program inbox v) }
  | some (.executing v a) =>
    match a.next? p.shared with
    | some (call, rest, shared) =>
      ⟨p.tasks.set i (.executing v rest), shared, p.calls ++ [(i, call)]⟩
    | none => p
  | _ => p

def turns (p : Pool M) (order : List Nat) : Pool M := order.foldl (turn program inbox) p

def drain (p : Pool M) (i : Nat) : Pool M :=
  match p.tasks[i]? with
  | some (.executing v a) =>
    ⟨p.tasks.set i (.executing v (.done (a.run p.shared).1)), (a.run p.shared).2,
      p.calls ++ (a.transcript p.shared).map (i, ·)⟩
  | _ => p

-- What was begun goes on to its end; a vertex is taken up as long as none has failed.
def resume (p : Pool M) (i : Nat) : Pool M :=
  if p.failed && p.tasks[i]?.any Task.isWaiting then p else (p.turn program inbox i).drain i

def join (p : Pool M) : Pool M :=
  (List.range p.tasks.length).foldl (resume program inbox) p

end Workers

end Pool

/-- Whose turn it is at each call, and which of several failures is reported. -/
structure Schedule where
  order : List Nat
  report : Nat

namespace Run

variable {M : Type}

def pool (r : Run M) (σ : Schedule) : Pool M :=
  ((Pool.opened r.graph.vertices r.memory).turns r.program r.inbox σ.order).join r.program r.inbox

def superstepUnder (r : Run M) (σ : Schedule) : Superstep M :=
  let p := r.pool σ
  let failures := p.failures r.memory.iteration
  { shared := p.shared
    vertices := p.tasks.map Task.vertex
    active := p.tasks.countP Task.isActive
    failure := failures[σ.report % failures.length]? }

def stepUnder (r : Run M) (σ : Schedule) : Except Failure Outcome × Run M :=
  r.stepWith (·.superstepUnder σ)

def stepsUnder : List Schedule → Run M → List (Except Failure Outcome) × Run M
  | [], r => ([], r)
  | σ :: rest, r =>
    let (outcome, next) := r.stepUnder σ
    let (outcomes, last) := stepsUnder rest next
    (outcome :: outcomes, last)

end Run

end BulkSync
