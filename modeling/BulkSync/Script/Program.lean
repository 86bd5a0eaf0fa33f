import BulkSync.Program.Basic
import BulkSync.Script.Expr
import BulkSync.Text.Hex

set_option autoImplicit false

namespace BulkSync.Script

abbrev Target := Option String

inductive Instruction
  | set (key : String) (value : Expr)
  | setBoolean (key : String) (value : Cond)
  | setValue (key : String) (value : Memory.Value)
  | incr (key : String) (value : Expr) (into : Target)
  | decr (key : String) (value : Expr) (into : Target)
  | and (key : String) (value : Cond) (into : Target)
  | or (key : String) (value : Cond) (into : Target)
  | get (key : String) (into : Target)
  | getInteger (key : String) (into : Target)
  | getBoolean (key : String) (into : Target)
  | getBlob (key : String) (into : Target)
  | property (name : String) (value : Expr)
  | propertyValue (name : String) (value : Scalar)
  | removeProperty (name : String)
  | send (target value : Expr)
  | sendAll (value : Expr)
  | halt
  | activate
  | fail (reason : String)

structure Guarded where
  guard : Option Cond
  instruction : Instruction

abbrev Code (M : Type) := ExceptT Cause (StateT (Option Vertex) (Action M))

namespace Code

variable {M : Type}

def act {α : Type} (a : Action M α) : Code M α := ExceptT.lift (StateT.lift a)

def access : Access (StateT (Option Vertex) (Action M)) := ⟨fun r => StateT.lift (.ask r)⟩

def change (f : Vertex → Vertex) : Code M Unit := modify (Option.map f)

def keep (into : Target) (value : Scalar) : Code M Unit :=
  match into with
  | some name => change (·.setProperty name value)
  | none => pure ()

def ask {α : Type} (a : Action M (Except Memory.Error α)) : Code M α := do ofMemory (← act a)

def step (post : List VertexId → Int64 → Action M Unit) (messages : List Int64)
    (i : Instruction) : Code M Unit := do
  let vertex ← get
  let scope : Scope := ⟨vertex, messages, 0⟩
  let number (e : Expr) : Code M Int64 := e.eval access scope
  let truth (c : Cond) : Code M Bool := c.eval access scope
  match i with
  | .set key value => ask (.tell (.set key (.integer (← number value))))
  | .setBoolean key value => ask (.tell (.set key (.boolean (← truth value))))
  | .setValue key value => ask (.tell (.set key value))
  | .incr key value into => keep into (.integer (← ask (.tell (.incr key (← number value)))))
  | .decr key value into => keep into (.integer (← ask (.tell (.decr key (← number value)))))
  | .and key value into => keep into (.boolean (← ask (.tell (.and key (← truth value)))))
  | .or key value into => keep into (.boolean (← ask (.tell (.or key (← truth value)))))
  | .get key into => keep into (.text (← ask (.ask (.value key))).display)
  | .getInteger key into => keep into (.integer (← ask (.ask (.integer key))))
  | .getBoolean key into => keep into (.boolean (← ask (.ask (.boolean key))))
  | .getBlob key into => keep into (.text (Text.hexText (← ask (.ask (.blob key)))))
  | .property name value =>
    let i ← number value
    change (·.setProperty name (.integer i))
  | .propertyValue name value => change (·.setProperty name value)
  | .removeProperty name => change (·.removeProperty name)
  | .send target value =>
    let id ← number target
    act (post [⟨id.toUInt64⟩] (← number value))
  | .sendAll value => act (post (vertex.elim [] (·.outEdges)) (← number value))
  | .halt => change Vertex.voteToHalt
  | .activate => change Vertex.activate
  | .fail reason => throw (.other reason)

def steps (post : List VertexId → Int64 → Action M Unit) (messages : List Int64) :
    List Guarded → Code M Unit
  | [] => pure ()
  | g :: rest => do
    let scope : Scope := ⟨← get, messages, 0⟩
    if ← holds access scope g.guard then step post messages g.instruction
    steps post messages rest

end Code

structure Program where
  keys : List Memory.Key
  setup : List Guarded
  execute : List Guarded
  terminate : Cond

def post (targets : List VertexId) (message : Int64) : Action Int64 Unit :=
  .sendAll message targets

def noPost (_ : List VertexId) (_ : Int64) : Action Empty Unit := .done ()

def Program.compile (p : Program) : VertexProgram Int64 where
  keys := p.keys
  setup := Prod.fst <$> (Code.steps noPost [] p.setup).run.run none
  execute v messages :=
    (fun (outcome, w) => (outcome, w.getD v)) <$>
      (Code.steps post messages p.execute).run.run (some v)
  terminate := Prod.fst <$> (p.terminate.eval Code.access ⟨none, [], 0⟩).run.run none

end BulkSync.Script
