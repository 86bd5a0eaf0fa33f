import BulkSync.Proofs.Run.Step

set_option autoImplicit false

namespace BulkSync

-- There is no buffer here, and nothing is done in place.
structure Machine (M : Type) where
  program : VertexProgram M
  -- The declared keys, with nothing written under them.
  slots : Std.ExtTreeMap String Memory.Slot
  ids : List VertexId

namespace Machine

variable {M : Type}

structure Verdict where
  asked : List (Call Empty)
  answer : Except Cause Bool

structure State (M : Type) where
  vertices : List Vertex
  readable : Std.ExtTreeMap String Memory.Value
  mail : VertexId → List M
  number : Nat
  halted : Bool
  verdicts : List Verdict

structure Turn (M : Type) where
  outcome : Except Cause Unit
  vertex : Vertex
  calls : List (Call M)

def view (machine : Machine M) (readable : Std.ExtTreeMap String Memory.Value) (number : Nat) :
    Memory :=
  ⟨machine.slots, readable, number, ⟨0, 0⟩, false⟩

def turn (machine : Machine M) (s : State M) (v : Vertex) : Turn M :=
  let messages := s.mail v.id
  let v := if messages = [] then v else v.activate
  if v.halted then ⟨.ok (), v, []⟩
  else
    let action := machine.program.execute v messages
    let (outcome, w) := action.result (machine.view s.readable s.number)
    ⟨outcome, w, action.calls (machine.view s.readable s.number)⟩

def apply (readable : Std.ExtTreeMap String Memory.Value) :
    Call M → Std.ExtTreeMap String Memory.Value
  | .write w (.ok _) => readable.insert w.key (w.apply readable[w.key]?)
  | _ => readable

/-- Nothing if a vertex or the termination test fails, or if the machine has halted before. -/
def round (machine : Machine M) (s : State M) : Option (State M) :=
  let turns := s.vertices.map (machine.turn s)
  if s.halted || !turns.all (·.outcome.isOk) then none
  else
    let calls := turns.flatMap Turn.calls
    let readable := calls.foldl apply s.readable
    let view := machine.view readable s.number
    let test := machine.program.terminate
    let verdict : Verdict := ⟨test.calls view, test.result view⟩
    match verdict.answer with
    | .error _ => none
    | .ok done =>
      some
        { vertices := turns.map Turn.vertex
          readable
          mail := fun id => if id ∈ machine.ids then calls.filterMap (·.sentTo id) else []
          -- Halting leaves the counter where it is.
          number := if done then s.number else s.number + 1
          halted := done
          verdicts := s.verdicts ++ [verdict] }

def rounds (machine : Machine M) : Nat → State M → Option (State M)
  | 0, s => some s
  | n + 1, s => (machine.rounds n s).bind machine.round

end Machine

namespace Run

variable {M : Type}

def machine (r : Run M) : Machine M where
  program := r.program
  slots := r.memory.frame.current
  ids := r.graph.vertices.map Vertex.id

def initial (r : Run M) : Machine.State M where
  vertices := r.graph.vertices
  readable := r.memory.previous
  mail := fun _ => []
  number := 0
  halted := false
  verdicts := []

-- What the termination test asks for on some memory, and its answer.
def verdictOn (r : Run M) (m : Memory) : Machine.Verdict :=
  ⟨r.program.terminate.transcript ⟨m, .empty⟩, (r.program.terminate.runOn m).1⟩

-- The runs that successful steps lead to, with their number and the verdicts asked for.
inductive Advanced (first : Run M) : Nat → List Machine.Verdict → Run M → Prop
  | start : Advanced first 0 [] first
  | step {n : Nat} {verdicts : List Machine.Verdict} {r next : Run M} {outcome : Outcome}
      (earlier : Advanced first n verdicts r) (stepped : r.step = (.ok outcome, next)) :
      Advanced first (n + 1) (verdicts ++ (r.tests superstep).map r.verdictOn) next

end Run

end BulkSync
