import BulkSync.Proofs.Graph.Index
import BulkSync.Proofs.Run.Determinism

set_option autoImplicit false

namespace BulkSync

namespace Vertex

inductive Altered (v : Vertex) : Vertex → Prop
  | refl : Altered v v
  | setProperty {w : Vertex} (earlier : Altered v w) (key : String) (value : Scalar) :
      Altered v (w.setProperty key value)
  | removeProperty {w : Vertex} (earlier : Altered v w) (key : String) :
      Altered v (w.removeProperty key)
  | voteToHalt {w : Vertex} (earlier : Altered v w) : Altered v w.voteToHalt
  | activate {w : Vertex} (earlier : Altered v w) : Altered v w.activate

theorem Altered.trans {u v w : Vertex} (first : u.Altered v) (later : v.Altered w) :
    u.Altered w := by
  induction later with
  | refl => exact first
  | setProperty _ key value ih => exact ih.setProperty key value
  | removeProperty _ key ih => exact ih.removeProperty key
  | voteToHalt _ ih => exact ih.voteToHalt
  | activate _ ih => exact ih.activate

-- What no method changes.
def fixed (v : Vertex) : VertexId × String × List VertexId := (v.id, v.label, v.outEdges)

theorem Altered.fixed {v w : Vertex} (altered : v.Altered w) : w.fixed = v.fixed := by
  induction altered with
  | refl => rfl
  | setProperty _ _ _ ih | removeProperty _ _ ih | voteToHalt _ ih | activate _ ih => exact ih

end Vertex

variable {M : Type}

def VertexProgram.Alters (program : VertexProgram M) : Prop :=
  ∀ (v : Vertex) messages m, v.Altered ((program.execute v messages).result m).2

theorem Inbox.altered_wake (inbox : Inbox M) (v : Vertex) : v.Altered (inbox.wake v) := by
  unfold wake
  split
  · exact .activate .refl
  · exact .refl

namespace Graph

-- The same graph with its vertices altered, each in its place.
inductive Reworked (g : Graph) : Graph → Prop
  | mk (f : Vertex → Vertex) (alters : ∀ v : Vertex, v.Altered (f v)) :
      Reworked g { g with vertices := g.vertices.map f }

theorem Reworked.refl (g : Graph) : g.Reworked g := by
  have same := Reworked.mk (g := g) id fun _ => .refl
  rwa [List.map_id] at same

section Reworked

variable {g h : Graph} (reworked : g.Reworked h)
include reworked

theorem Reworked.trans {k : Graph} (later : h.Reworked k) : g.Reworked k := by
  obtain ⟨f, first⟩ := reworked
  obtain ⟨f', second⟩ := later
  have both := Reworked.mk (g := g) (f' ∘ f) fun v => (first v).trans (second (f v))
  rwa [← List.map_map] at both

theorem Reworked.index : h.index = g.index := by
  obtain ⟨f, -⟩ := reworked
  rfl

theorem Reworked.fixed : h.vertices.map Vertex.fixed = g.vertices.map Vertex.fixed := by
  obtain ⟨f, alters⟩ := reworked
  rw [List.map_map]
  exact List.map_congr_left fun v _ => (alters v).fixed

theorem Reworked.indexed (indexed : g.Indexed) : h.Indexed := by
  have ids : h.vertices.map Vertex.id = g.vertices.map Vertex.id := by
    simpa [Function.comp_def, Vertex.fixed] using congrArg (List.map Prod.fst) reworked.fixed
  intro id position
  rw [reworked.index, indexed, ← List.getElem?_map, ← List.getElem?_map, ids]

end Reworked

end Graph

namespace Run

variable {r : Run M}

theorem altered_fateOf (alters : r.program.Alters) (v : Vertex) : v.Altered (r.fateOf v).2 := by
  have woken := r.inbox.altered_wake v
  cases active : (r.inbox.wake v).halted with
  | true =>
    rw [fateOf, Task.fate_of_halted _ _ active]
    exact woken
  | false =>
    rw [fateOf, Task.fate_of_active _ _ active]
    exact woken.trans (alters _ _ _)

theorem reworked_superstepUnder (sound : r.Sound) (alters : r.program.Alters) {σ : Schedule}
    (passes : (r.superstepUnder σ).failure = none) :
    r.graph.Reworked { r.graph with vertices := (r.superstepUnder σ).vertices } := by
  rw [vertices_superstepUnder sound.typed passes]
  exact .mk _ (altered_fateOf alters)

theorem reworked_stepUnder (steady : r.Steady) (alters : r.program.Alters) (σ : Schedule) :
    r.graph.Reworked (r.stepUnder σ).2.graph := by
  by_cases executing : r.phase = .execute
  · have sound := steady executing
    have ended := ended_stepUnder sound executing σ
    rcases stepped : r.stepUnder σ with ⟨outcome, next⟩
    rw [stepped] at ended
    cases ended with
    -- The vertices that a failed superstep has altered are put back.
    | aborted => exact .refl r.graph
    | broken passes | halted passes | limited passes | continued passes =>
      exact reworked_superstepUnder sound alters passes
  · rw [stepUnder_of_left executing]
    exact .refl r.graph

theorem reworked_stepsUnder (steady : r.Steady) (alters : r.program.Alters)
    (schedules : List Schedule) : r.graph.Reworked (r.stepsUnder schedules).2.graph := by
  induction schedules generalizing r with
  | nil => exact .refl r.graph
  | cons σ rest ih =>
    have later := ih (steady.stepUnder σ) (program_stepUnder r σ ▸ alters)
    exact (reworked_stepUnder steady alters σ).trans later

end Run

end BulkSync
