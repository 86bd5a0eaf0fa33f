import BulkSync.Graph.Vertex

set_option autoImplicit false

namespace BulkSync

variable {M : Type}

structure Outbox (M : Type) where
  pending : Std.ExtTreeMap VertexId (List M)

structure Inbox (M : Type) where
  delivered : Std.ExtTreeMap VertexId (List M)

namespace Inbox

def empty : Inbox M := ⟨∅⟩

def messages (inbox : Inbox M) (id : VertexId) : List M := inbox.delivered[id]?.getD []

def hasMessages (inbox : Inbox M) (id : VertexId) : Bool := !(inbox.messages id).isEmpty

def size (inbox : Inbox M) : Nat :=
  inbox.delivered.values.foldr (fun messages n => messages.length + n) 0

def isEmpty (inbox : Inbox M) : Bool := inbox.size = 0

def wake (inbox : Inbox M) (v : Vertex) : Vertex :=
  if inbox.hasMessages v.id then v.activate else v

end Inbox

namespace Outbox

def empty : Outbox M := ⟨∅⟩

def send (outbox : Outbox M) (target : VertexId) (message : M) : Outbox M :=
  ⟨outbox.pending.alter target fun sent => some (message :: sent.getD [])⟩

def isEmpty (outbox : Outbox M) : Bool := outbox.pending.isEmpty

def waiting (outbox : Outbox M) (target : VertexId) : List M :=
  (outbox.pending[target]?.getD []).reverse

theorem waiting_send (outbox : Outbox M) (target : VertexId) (message : M) (id : VertexId) :
    (outbox.send target message).waiting id =
      outbox.waiting id ++ if target = id then [message] else [] := by
  unfold waiting send
  rw [Std.ExtTreeMap.getElem?_alter]
  by_cases same : target = id <;> simp [same]

def deliver (outbox : Outbox M) (known : VertexId → Bool) : Inbox M :=
  ⟨outbox.pending.filterMap fun target sent => if known target then some sent.reverse else none⟩

theorem messages_deliver (outbox : Outbox M) (known : VertexId → Bool) (id : VertexId) :
    (outbox.deliver known).messages id = if known id then outbox.waiting id else [] := by
  unfold deliver Inbox.messages waiting
  rw [Std.ExtTreeMap.getElem?_filterMap']
  cases found : outbox.pending[id]? with
  | none => simp
  | some sent => cases known id <;> simp

def lost (outbox : Outbox M) (known : VertexId → Bool) : List (VertexId × Nat) :=
  outbox.pending.toList.filterMap fun (target, sent) =>
    if known target then none else some (target, sent.length)

end Outbox

end BulkSync
