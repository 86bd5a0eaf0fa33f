import Mathlib.Algebra.BigOperators.Group.List.Basic
import Mathlib.Algebra.GroupWithZero.Nat
import Mathlib.Data.List.Nodup
import BulkSync.Proofs.Run.Vertices

set_option autoImplicit false

namespace BulkSync

-- What a reference to a vertex is used for; no method of a vertex changes its id.
structure Vertex.Edit where
  apply : Vertex → Vertex
  keeps (v : Vertex) : (apply v).id = v.id

namespace Graph

section Lookup

theorem map_of_absent {vertices : List Vertex} {id : VertexId}
    (absent : id ∉ vertices.map Vertex.id) (f : Vertex → Vertex) :
    vertices.map (fun v => if v.id = id then f v else v) = vertices := by
  refine (List.map_congr_left fun v member => ?_).trans (List.map_id' vertices)
  exact if_neg fun (same : v.id = id) => absent (same ▸ List.mem_map_of_mem member)

variable {g : Graph} (indexed : g.Indexed)
include indexed

theorem Indexed.position (id : VertexId) :
    g.index[id]? = g.vertices.findIdx? (·.id = id) := by
  have held (i : Nat) (within : i < g.vertices.length) :
      g.index[id]? = some i ↔ g.vertices[i].id = id := by
    rw [indexed, List.getElem?_eq_getElem within]
    simp
  refine Option.ext fun i => ?_
  rw [List.findIdx?_eq_some_iff_getElem]
  constructor
  · intro at_i
    have within : i < g.vertices.length := by
      obtain ⟨v, found, -⟩ := Option.map_eq_some_iff.1 ((indexed id i).1 at_i)
      exact (List.getElem?_eq_some_iff.1 found).1
    refine ⟨within, decide_eq_true ((held i within).1 at_i), fun j before same => ?_⟩
    -- Two positions of one id would both be the one that the index holds.
    have at_j := (held j (by omega)).2 (of_decide_eq_true same)
    rw [at_i] at at_j
    cases at_j
    omega
  · rintro ⟨within, same, -⟩
    exact (held i within).2 (of_decide_eq_true same)

theorem Indexed.vertex?_eq_find? (id : VertexId) :
    g.vertex? id = g.vertices.find? (·.id = id) := by
  rw [vertex?, indexed.position, List.find?_eq_bind_findIdx?_getElem?]

theorem Indexed.contains_eq_any (id : VertexId) :
    g.contains id = g.vertices.any (·.id = id) := by
  rw [Bool.eq_iff_iff, indexed.contains_iff]
  simp

theorem Indexed.update_eq_map (id : VertexId) (f : Vertex → Vertex) :
    g.update id f =
      { g with vertices := g.vertices.map fun v => if v.id = id then f v else v } := by
  unfold Graph.update
  split
  next position found =>
    have same : g.vertices.modify position f =
        g.vertices.map fun v => if v.id = id then f v else v := by
      refine List.ext_getElem? fun i => ?_
      rw [List.getElem?_modify, List.getElem?_map]
      cases at_i : g.vertices[i]? with
      | none => rfl
      | some v =>
        have own := (indexed v.id i).2 (by rw [at_i]; rfl)
        have here : position = i ↔ v.id = id := by
          constructor
          · rintro rfl
            simpa [at_i] using (indexed id position).1 found
          · rintro rfl
            exact Option.some.inj (found.symm.trans own)
        simp [here]
    rw [same]
  next absent =>
    have unknown : id ∉ g.vertices.map Vertex.id := by
      rw [← indexed.contains_iff, contains, Std.ExtTreeMap.contains_eq_isSome_getElem?, absent]
      simp
    rw [map_of_absent unknown]

end Lookup

section Calls

variable {g h : Graph}

theorem addVertex_eq_error_iff {v : Vertex} {e : Error} :
    (g.addVertex v).1 = .error e ↔ e = .duplicate v.id ∧ g.contains v.id = true := by
  unfold addVertex
  cases g.contains v.id <;> simp [eq_comm]

theorem addVertex_eq_ok_iff {v : Vertex} :
    g.addVertex v = (.ok (), h) ↔ g.contains v.id = false ∧ h = g.push v := by
  unfold addVertex
  cases g.contains v.id <;> simp [eq_comm]

theorem addVertex_refused {v : Vertex} {e : Error} (fails : (g.addVertex v).1 = .error e) :
    g.addVertex v = (.error e, g) := by
  unfold addVertex at fails ⊢
  split at fails
  next taken =>
    cases fails
    rw [if_pos taken]
  next => cases fails

theorem addEdge_eq_error_iff {source target : VertexId} {e : Error} :
    (g.addEdge source target).1 = .error e ↔
      g.contains target = false ∧ e = .missing target ∨
        g.contains target = true ∧ g.contains source = false ∧ e = .missing source := by
  unfold addEdge
  cases g.contains target <;> cases g.contains source <;> simp [eq_comm]

theorem addEdge_eq_ok_iff {source target : VertexId} :
    g.addEdge source target = (.ok (), h) ↔
      g.contains target = true ∧ g.contains source = true ∧
        h = g.update source (·.addOutEdge target) := by
  unfold addEdge
  cases g.contains target <;> cases g.contains source <;> simp [eq_comm]

theorem addEdge_refused {source target : VertexId} {e : Error}
    (fails : (g.addEdge source target).1 = .error e) : (g.addEdge source target).2 = g := by
  unfold addEdge at fails ⊢
  cases known : g.contains target <;> cases from_known : g.contains source <;> simp_all

theorem edgeCount_eq_sum (g : Graph) :
    g.edgeCount = (g.vertices.map Vertex.outDegree).sum := by
  rw [edgeCount, List.sum, List.foldr_map]

theorem Indexed.update_split (indexed : g.Indexed) {id : VertexId} (known : g.contains id = true)
    (f : Vertex → Vertex) :
    ∃ before v after, g.vertices = before ++ v :: after ∧ v.id = id ∧
      g.update id f = { g with vertices := before ++ f v :: after } := by
  obtain ⟨v, member, rfl⟩ := List.mem_map.1 ((indexed.contains_iff id).1 known)
  obtain ⟨before, after, whole⟩ := List.append_of_mem member
  have distinct := indexed.nodup
  rw [whole, List.map_append, List.map_cons, List.nodup_middle, List.nodup_cons,
    List.mem_append] at distinct
  refine ⟨before, v, after, whole, rfl, ?_⟩
  rw [indexed.update_eq_map, whole, List.map_append, List.map_cons, if_pos rfl,
    map_of_absent fun among => distinct.1 (.inl among),
    map_of_absent fun among => distinct.1 (.inr among)]

end Calls

section Changes

inductive Change
  -- The vertex is edited through the reference that a successful call gives back.
  | addVertex (v : Vertex) (edit : Vertex.Edit)
  | addEdge (source target : VertexId)
  | update (id : VertexId) (edit : Vertex.Edit)

-- What a call returns, and the graph that it leaves.
def perform (g : Graph) : Change → Except Error Unit × Graph
  | .addVertex v edit =>
    match g.addVertex v with
    | (.ok (), h) => (.ok (), { h with vertices := h.vertices.modify g.size edit.apply })
    | (.error e, h) => (.error e, h)
  | .addEdge source target => g.addEdge source target
  | .update id edit => (.ok (), g.update id edit.apply)

theorem perform_addVertex {g h : Graph} {v : Vertex} (added : g.addVertex v = (.ok (), h))
    (edit : Vertex.Edit) :
    g.perform (.addVertex v edit) =
      (.ok (), { h with vertices := g.vertices ++ [edit.apply v] }) := by
  obtain ⟨-, rfl⟩ := addVertex_eq_ok_iff.1 added
  have last : (g.vertices ++ [v]).modify g.size edit.apply = g.vertices ++ [edit.apply v] := by
    rw [List.modify_eq_take_cons_drop (by simp [size])]
    simp [size]
  simp only [perform, added]
  exact congrArg (fun vertices => (Except.ok (), { g.push v with vertices })) last

theorem perform_refused {g : Graph} {c : Change} {e : Error}
    (fails : (g.perform c).1 = .error e) : (g.perform c).2 = g := by
  cases c with
  | addVertex v edit =>
    rcases added : g.addVertex v with ⟨_ | ⟨⟨⟩⟩, h⟩
    next reason =>
      have refused := addVertex_refused (congrArg Prod.fst added)
      rw [added] at refused
      simp only [perform, added]
      exact congrArg Prod.snd refused
    next =>
      rw [perform_addVertex added] at fails
      cases fails
  | addEdge source target => exact addEdge_refused fails
  | update id edit => cases fails

theorem Indexed.perform {g : Graph} (indexed : g.Indexed) (c : Change) :
    (g.perform c).2.Indexed := by
  cases c with
  | addVertex v edit =>
    have added := indexed.addVertex v
    rw [Graph.perform]
    split
    next h same =>
      rw [same] at added
      intro id position
      rw [added id position, List.getElem?_modify]
      split <;> cases h.vertices[position]? <;> simp [edit.keeps]
    next e h same =>
      rw [same] at added
      exact added
  | addEdge source target => exact indexed.addEdge source target
  | update id edit => exact indexed.update id edit.keeps

end Changes

/-- The graphs that can be built, and those that runs over them leave, whether their steps have
failed or not. -/
inductive Grown : Graph → Prop
  | empty : Grown empty
  | withVertices (n : UInt64) : Grown (.withVertices n.toNat)
  | ofEdges (edges : List (VertexId × VertexId)) : Grown (.ofEdges edges)
  | performed {g : Graph} (earlier : Grown g) (c : Change) : Grown (g.perform c).2
  | ran {M : Type} {g : Graph} {program : VertexProgram M} {jobs : List Registered}
      {settings : Settings} {host : Host} {first : Run M} (earlier : Grown g)
      (alters : program.Alters) (began : Run.start g program jobs settings host = .ok first)
      (schedules : List Schedule) : Grown (first.stepsUnder schedules).2.graph

theorem reworked_of_start {M : Type} {g : Graph} {program : VertexProgram M}
    {jobs : List Registered} {settings : Settings} {host : Host} {first : Run M}
    (alters : program.Alters) (began : Run.start g program jobs settings host = .ok first)
    (schedules : List Schedule) : g.Reworked (first.stepsUnder schedules).2.graph := by
  have fresh := Run.fresh_of_start began
  have reworked := Run.reworked_stepsUnder (fun _ => fresh.sound) (fresh.program ▸ alters) schedules
  rwa [fresh.graph] at reworked

theorem Grown.indexed {g : Graph} (grown : Grown g) : g.Indexed := by
  induction grown with
  | empty => exact indexed_empty
  | withVertices n => exact indexed_withVertices n
  | ofEdges edges => exact indexed_ofEdges edges
  | performed _ c ih => exact ih.perform c
  | ran _ alters began schedules ih =>
    exact (reworked_of_start alters began schedules).indexed ih

structure Consistent (g : Graph) : Prop where
  distinct : (g.vertices.map Vertex.id).Nodup
  index (id : VertexId) (i : Nat) :
    g.index[id]? = some i ↔ g.vertices[i]?.map Vertex.id = some id
  position (id : VertexId) : g.index[id]? = g.vertices.findIdx? (·.id = id)
  vertex (id : VertexId) : g.vertex? id = g.vertices.find? (·.id = id)
  contains (id : VertexId) : g.contains id = g.vertices.any (·.id = id)
  update (id : VertexId) (f : Vertex → Vertex) : g.update id f =
    { g with vertices := g.vertices.map fun v => if v.id = id then f v else v }
  addVertex_fails (v : Vertex) (e : Error) : (g.addVertex v).1 = .error e ↔
    v.id ∈ g.vertices.map Vertex.id ∧ e = .duplicate v.id
  -- Behind all others, each of which stays where it is.
  adds (v : Vertex) (edit : Vertex.Edit) (h : Graph) (added : g.addVertex v = (.ok (), h)) :
    h.vertices = g.vertices ++ [v] ∧ h.index[v.id]? = some g.size ∧
      (∀ id, id ≠ v.id → h.index[id]? = g.index[id]?) ∧
      g.perform (.addVertex v edit) =
        (.ok (), { h with vertices := g.vertices ++ [edit.apply v] })
  addEdge_fails (source target : VertexId) (e : Error) : (g.addEdge source target).1 = .error e ↔
    target ∉ g.vertices.map Vertex.id ∧ e = .missing target ∨
      target ∈ g.vertices.map Vertex.id ∧ source ∉ g.vertices.map Vertex.id ∧ e = .missing source
  connects (source target : VertexId) (h : Graph) (added : g.addEdge source target = (.ok (), h)) :
    ∃ before v after, g.vertices = before ++ v :: after ∧ v.id = source ∧
      h = { g with vertices := before ++ v.addOutEdge target :: after } ∧
      h.edgeCount = g.edgeCount + 1
  refused (c : Change) (e : Error) (fails : (g.perform c).1 = .error e) : (g.perform c).2 = g
  runs {M : Type} {program : VertexProgram M} {jobs : List Registered} {settings : Settings}
    {host : Host} {first : Run M} (alters : program.Alters)
    (began : Run.start g program jobs settings host = .ok first) (schedules : List Schedule) :
    (first.stepsUnder schedules).2.graph.index = g.index ∧
      (first.stepsUnder schedules).2.graph.vertices.map (fun v => (v.id, v.label, v.outEdges)) =
        g.vertices.map fun v => (v.id, v.label, v.outEdges)

theorem Grown.consistent {g : Graph} (grown : Grown g) : g.Consistent := by
  have indexed := grown.indexed
  have known (id : VertexId) := indexed.contains_iff id
  have unknown (id : VertexId) : g.contains id = false ↔ id ∉ g.vertices.map Vertex.id := by
    rw [← known, Bool.not_eq_true]
  constructor
  case distinct => exact indexed.nodup
  case index => exact indexed
  case position => exact indexed.position
  case vertex => exact indexed.vertex?_eq_find?
  case contains => exact indexed.contains_eq_any
  case update => exact indexed.update_eq_map
  case addVertex_fails =>
    intro v e
    rw [addVertex_eq_error_iff, known, and_comm]
  case adds =>
    intro v edit h added
    have performed := perform_addVertex added edit
    obtain ⟨-, rfl⟩ := addVertex_eq_ok_iff.1 added
    refine ⟨rfl, Std.ExtTreeMap.getElem?_insert_self, fun id other => ?_, performed⟩
    simp [push, Std.ExtTreeMap.getElem?_insert, Ne.symm other]
  case addEdge_fails =>
    intro source target e
    rw [addEdge_eq_error_iff, known, unknown, unknown]
  case connects =>
    intro source target h added
    obtain ⟨-, present, rfl⟩ := addEdge_eq_ok_iff.1 added
    obtain ⟨before, v, after, whole, same, updated⟩ :=
      indexed.update_split present (·.addOutEdge target)
    refine ⟨before, v, after, whole, same, updated, ?_⟩
    rw [updated, edgeCount_eq_sum, edgeCount_eq_sum, whole]
    simp [Vertex.addOutEdge, Vertex.outDegree]
    omega
  case refused => exact fun c e => perform_refused
  case runs =>
    intro M program jobs settings host first alters began schedules
    have reworked := reworked_of_start alters began schedules
    exact ⟨reworked.index, reworked.fixed⟩

-- A vertex is added and halted, another is there already, and an edge is added to the first.
def extended : Graph :=
  let halt : Vertex.Edit := ⟨Vertex.voteToHalt, fun _ => rfl⟩
  let g := (perform (.withVertices 2) (.addVertex (.new ⟨7⟩) halt)).2
  let g := (g.perform (.addVertex (.new ⟨1⟩) halt)).2
  (g.perform (.addEdge ⟨7⟩ ⟨0⟩)).2

theorem grown_extended : Grown extended :=
  .performed (.performed (.performed (.withVertices 2) _) _) _

-- Each vertex is marked; one of them fails.
def marking : VertexProgram Unit where
  keys := []
  setup := .done (.ok ())
  execute v _ :=
    .done (if v.id = ⟨1⟩ then .error (.other "one") else .ok (),
      v.setProperty "seen" (.boolean true))
  terminate := .done (.ok false)

theorem Grown.consistent_marking :
    ∃ first : Run Unit,
      Run.start extended marking [] ⟨none, none, none⟩ .still = .ok first ∧
      (first.stepUnder ⟨[2, 1, 0], 0⟩).1 = .error (.vertex ⟨1⟩ 0 (.other "one")) ∧
      Grown (first.stepsUnder [⟨[2, 1, 0], 0⟩]).2.graph ∧
      (first.stepsUnder [⟨[2, 1, 0], 0⟩]).2.graph.Consistent ∧
      (first.stepsUnder [⟨[2, 1, 0], 0⟩]).2.graph.vertices.map
          (fun v => (v.id, v.label, v.outEdges)) =
        [(⟨0⟩, "vertex", []), (⟨1⟩, "vertex", []), (⟨7⟩, "vertex", [⟨0⟩])] := by
  obtain ⟨first, began, failed⟩ :
      ∃ first : Run Unit,
        Run.start extended marking [] ⟨none, none, none⟩ .still = .ok first ∧
        (first.stepUnder ⟨[2, 1, 0], 0⟩).1 = .error (.vertex ⟨1⟩ 0 (.other "one")) :=
    ⟨_, rfl, rfl⟩
  have alters : marking.Alters := fun _ _ _ => .setProperty .refl _ _
  have ran : Grown (first.stepsUnder [⟨[2, 1, 0], 0⟩]).2.graph :=
    .ran grown_extended alters began _
  have built : Graph.Consistent extended := Grown.consistent grown_extended
  refine ⟨first, began, failed, ran, ran.consistent, ?_⟩
  rw [(built.runs alters began _).2]
  rfl

end Graph

end BulkSync
