import BulkSync.Memory.Read
import BulkSync.Memory.Write
import BulkSync.Program.Messages

set_option autoImplicit false

namespace BulkSync

inductive Action (M α : Type) where
  | done (a : α)
  | read (r : Memory.Read) (next : r.Answer → Action M α)
  | write (w : Memory.Write) (next : Except Memory.Error w.Answer → Action M α)
  | send (target : VertexId) (message : M) (next : Action M α)

structure Shared (M : Type) where
  memory : Memory
  outbox : Outbox M

namespace Action

variable {M α β γ : Type}

def bind (f : α → Action M β) : Action M α → Action M β
  | done a => f a
  | read r next => read r fun answer => bind f (next answer)
  | write w next => write w fun answer => bind f (next answer)
  | send target message next => send target message (bind f next)

instance : Monad (Action M) where
  pure := done
  bind a f := a.bind f

theorem bind_done (a : Action M α) : a.bind done = a := by
  induction a with
  | done a => rfl
  | read r next ih => exact congrArg (read r) (funext ih)
  | write w next ih => exact congrArg (write w) (funext ih)
  | send target message next ih => exact congrArg (send target message) ih

theorem bind_bind (f : α → Action M β) (g : β → Action M γ) (a : Action M α) :
    (a.bind f).bind g = a.bind fun x => (f x).bind g := by
  induction a with
  | done a => rfl
  | read r next ih => exact congrArg (read r) (funext ih)
  | write w next ih => exact congrArg (write w) (funext ih)
  | send target message next ih => exact congrArg (send target message) ih

instance : LawfulMonad (Action M) :=
  LawfulMonad.mk' (Action M) bind_done (fun _ _ => rfl) (fun a f g => bind_bind f g a)

def run : Action M α → Shared M → α × Shared M
  | done a, s => (a, s)
  | read r next, s => (next (s.memory.answer r)).run s
  | write w next, s =>
    let (answer, memory) := s.memory.write w
    (next answer).run { s with memory }
  | send target message next, s => next.run { s with outbox := s.outbox.send target message }

def runOn (a : Action Empty α) (m : Memory) : α × Memory :=
  let (result, s) := a.run ⟨m, .empty⟩
  (result, s.memory)

def ask (r : Memory.Read) : Action M r.Answer := read r done

def tell (w : Memory.Write) : Action M (Except Memory.Error w.Answer) := write w done

def sendAll (message : M) : List VertexId → Action M Unit
  | [] => done ()
  | target :: rest => send target message (sendAll message rest)

end Action

end BulkSync
