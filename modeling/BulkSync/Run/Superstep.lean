import BulkSync.Program.Basic

set_option autoImplicit false

namespace BulkSync

structure Superstep (M : Type) where
  shared : Shared M
  vertices : List Vertex
  active : Nat
  failure : Option Failure

namespace Superstep

variable {M : Type}

def run (program : VertexProgram M) (inbox : Inbox M) (number : Nat) :
    List Vertex → Shared M → Superstep M
  | [], s => ⟨s, [], 0, none⟩
  | v :: rest, s =>
    let v := inbox.wake v
    if v.halted then
      let next := run program inbox number rest s
      { next with vertices := v :: next.vertices }
    else
      match (program.execute v (inbox.messages v.id)).run s with
      | ((.ok _, w), s) =>
        let next := run program inbox number rest s
        { next with vertices := w :: next.vertices, active := next.active + 1 }
      | ((.error cause, w), s) => ⟨s, w :: rest, 1, some (.vertex v.id number cause)⟩

end Superstep

end BulkSync
