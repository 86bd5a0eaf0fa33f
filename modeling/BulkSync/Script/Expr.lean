import BulkSync.Failure
import BulkSync.Program.Action

set_option autoImplicit false

namespace BulkSync.Script

inductive Operation
  | add
  | sub
  | mul
  | mod
  | least
  | most

/-- The remainder is not negative; by zero it is the number itself. -/
def Operation.apply (op : Operation) (a b : Int64) : Int64 :=
  match op with
  | .add => a + b
  | .sub => a - b
  | .mul => a * b
  | .mod => Int64.ofInt (a.toInt % b.toInt)
  | .least => if a ≤ b then a else b
  | .most => if a ≤ b then b else a

inductive Comparison
  | equal
  | less
  | atLeast

def Comparison.holds (c : Comparison) (a b : Int64) : Bool :=
  match c with
  | .equal => a = b
  | .less => a < b
  | .atLeast => b ≤ a

inductive Digest
  | count
  | sum
  | least
  | most
  | first
  | last

def least? (xs : List Int64) : Option Int64 := xs.min?

def most? (xs : List Int64) : Option Int64 := xs.max?

def total (xs : List Int64) : Int64 := xs.foldl (· + ·) 0

def Digest.of (d : Digest) (messages : List Int64) : Int64 :=
  match d with
  | .count => Int64.ofNat messages.length
  | .sum => total messages
  | .least => (least? messages).getD 0
  | .most => (most? messages).getD 0
  | .first => messages.head?.getD 0
  | .last => messages.getLast?.getD 0

inductive Expr
  | number (i : Int64)
  | id
  | degree
  | iteration
  | calls
  | messages (d : Digest)
  | memory (key : String)
  | memoryOr (key : String) (other : Expr)
  | property (name : String) (other : Expr)
  | apply (op : Operation) (a b : Expr)

inductive Cond
  | constant (b : Bool)
  | initial
  | hasMessages
  | halted
  | compare (c : Comparison) (a b : Expr)
  | not (c : Cond)
  | all (cs : List Cond)
  | any (cs : List Cond)
  | memory (key : String)
  | hasProperty (name : String)
  | hasKey (key : String)
  | label (text : String)
  | fail (reason : String)

structure Scope where
  vertex : Option Vertex
  messages : List Int64
  calls : Nat

structure Access (m : Type → Type) where
  ask : (r : Memory.Read) → m r.Answer

section Eval

variable {m : Type → Type} [Monad m] (access : Access m) (scope : Scope)

def ofMemory {α : Type} (found : Except Memory.Error α) : ExceptT Cause m α :=
  match found with
  | .ok a => pure a
  | .error e => throw (.memory e)

def Expr.eval : Expr → ExceptT Cause m Int64
  | .number i => pure i
  | .id => pure (scope.vertex.elim 0 (·.id.val.toInt64))
  | .degree => pure (scope.vertex.elim 0 (Int64.ofNat ·.outDegree))
  | .iteration => return Int64.ofNat (← access.ask .iteration)
  | .calls => pure (Int64.ofNat scope.calls)
  | .messages d => pure (d.of scope.messages)
  | .memory key => do ofMemory (← access.ask (.integer key))
  | .memoryOr key other => do
    match ← access.ask (.integer key) with
    | .ok i => return i
    | .error _ => other.eval
  | .property name other =>
    match (scope.vertex.bind (·.property name)).bind Scalar.integer? with
    | some i => pure i
    | none => other.eval
  | .apply op a b => do
    let x ← a.eval
    let y ← b.eval
    return op.apply x y

mutual

def Cond.eval : Cond → ExceptT Cause m Bool
  | .constant b => pure b
  | .initial => return (← access.ask .iteration) = 0
  | .hasMessages => pure (!scope.messages.isEmpty)
  | .halted => pure (scope.vertex.any (·.halted))
  | .compare c a b => do
    let x ← a.eval access scope
    let y ← b.eval access scope
    return c.holds x y
  | .not c => return !(← c.eval)
  | .all cs => evalAll cs
  | .any cs => evalAny cs
  | .memory key => do ofMemory (← access.ask (.boolean key))
  | .hasProperty name => pure (scope.vertex.any fun v => (v.property name).isSome)
  | .hasKey key => access.ask (.contains key)
  | .label text => pure (scope.vertex.any (·.label = text))
  | .fail reason => throw (.other reason)

-- The first that is false decides.
def evalAll : List Cond → ExceptT Cause m Bool
  | [] => pure true
  | c :: rest => do if ← c.eval then evalAll rest else return false

def evalAny : List Cond → ExceptT Cause m Bool
  | [] => pure false
  | c :: rest => do if ← c.eval then return true else evalAny rest

end

def holds (guard : Option Cond) : ExceptT Cause m Bool :=
  match guard with
  | some c => c.eval access scope
  | none => pure true

end Eval

end BulkSync.Script
