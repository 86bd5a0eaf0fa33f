import BulkSync.Proofs.Graph.Representation
import Mathlib.Algebra.BigOperators.Group.Finset.Basic

set_option autoImplicit false

namespace BulkSync.Graph

section Ends

@[simp] theorem contains_empty (id : VertexId) : empty.contains id = false := by
  simp [contains, empty]

@[simp] theorem contains_push (g : Graph) (v : Vertex) (id : VertexId) :
    (g.push v).contains id = (decide (v.id = id) || g.contains id) := by
  rw [contains, push, Std.ExtTreeMap.contains_insert, Bool.beq_eq_decide_eq]
  simp [contains]

@[simp] theorem contains_update (g : Graph) (id other : VertexId) (f : Vertex → Vertex) :
    (g.update id f).contains other = g.contains other := by
  unfold update
  split <;> rfl

-- No id is looked up: each is taken for a new one.
def bare (g : Graph) (ids : List VertexId) : Graph := ids.foldl (fun g id => g.push (.new id)) g

theorem vertices_bare (g : Graph) (ids : List VertexId) :
    (g.bare ids).vertices = g.vertices ++ ids.map .new := by
  induction ids generalizing g with
  | nil => simp [bare]
  | cons id rest ih =>
    have next : g.bare (id :: rest) = (g.push (.new id)).bare rest := rfl
    rw [next, ih]
    simp [push]

theorem collect_eq_bare (g : Graph) (ids : List VertexId) :
    g.collect ids = g.bare (ids.filter fun id => !g.contains id).eraseDups := by
  induction ids generalizing g with
  | nil => rfl
  | cons id rest ih =>
    cases held : g.contains id with
    | true =>
      have next : g.collect (id :: rest) = g.collect rest := by simp [collect, held]
      rw [next, ih, List.filter_cons_of_neg (by simp [held])]
    | false =>
      have next : g.collect (id :: rest) = (g.push (.new id)).collect rest := by
        simp [collect, held]
      -- What is still to come is neither this id nor one that was there before.
      have later : rest.filter (fun other => !(g.push (.new id)).contains other) =
          (rest.filter fun other => !g.contains other).filter fun other => !other == id := by
        rw [List.filter_filter]
        refine List.filter_congr fun other _ => ?_
        by_cases same : id = other <;> simp [Vertex.new, same, Ne.symm]
      rw [next, ih, later, List.filter_cons_of_pos (by simp [held]), List.eraseDups_cons]
      rfl

theorem collect_empty (ids : List VertexId) : empty.collect ids = empty.bare ids.eraseDups := by
  rw [collect_eq_bare]
  simp

theorem ids_collect (ids : List VertexId) :
    (empty.collect ids).vertices.map Vertex.id = ids.eraseDups := by
  rw [collect_empty, vertices_bare]
  simp [empty, Vertex.new, Function.comp_def]

theorem contains_collect {ids : List VertexId} {id : VertexId} :
    (empty.collect ids).contains id = true ↔ id ∈ ids := by
  rw [(indexed_empty.collect ids).contains_iff, ids_collect, List.mem_eraseDups]

end Ends

section Targets

variable (edges : List (VertexId × VertexId))

def targets (source : VertexId) : List VertexId :=
  (edges.filter (·.1 = source)).map Prod.snd

theorem Indexed.vertices_connect {g : Graph} (indexed : g.Indexed) :
    (g.connect edges).vertices =
      g.vertices.map fun v => { v with outEdges := v.outEdges ++ targets edges v.id } := by
  induction edges generalizing g with
  | nil => simp [Graph.connect, targets]
  | cons edge rest ih =>
    obtain ⟨source, target⟩ := edge
    have next : g.connect ((source, target) :: rest) =
        (g.update source (·.addOutEdge target)).connect rest := rfl
    have later := ih (indexed.update source (f := (·.addOutEdge target)) fun _ => rfl)
    rw [next, later, indexed.update_eq_map, List.map_map]
    refine List.map_congr_left fun v _ => ?_
    by_cases same : v.id = source
    next => simp [targets, Vertex.addOutEdge, same]
    next => simp [targets, same, Ne.symm same]

variable {edges}

-- Each edge has its source among the ids, and only once.
theorem sum_targets {ids : List VertexId} (distinct : ids.Nodup)
    (covers : ∀ edge ∈ edges, edge.1 ∈ ids) :
    (ids.map fun id => (targets edges id).length).sum = edges.length := by
  have counted (id : VertexId) : (targets edges id).length = (edges.map Prod.fst).count id := by
    rw [targets, List.length_map, List.count, List.countP_map, List.countP_eq_length_filter]
    rfl
  have among : ∀ id ∈ (edges.map Prod.fst : Multiset VertexId), id ∈ ids.toFinset := by
    intro id member
    obtain ⟨edge, held, rfl⟩ := List.mem_map.1 (Multiset.mem_coe.1 member)
    exact List.mem_toFinset.2 (covers edge held)
  simp only [counted]
  rw [← List.sum_toFinset _ distinct]
  simpa using Multiset.sum_count_eq_card among

end Targets

section Edges

theorem mem_endpoints {edges : List (VertexId × VertexId)} {id : VertexId} :
    id ∈ endpoints edges ↔ ∃ edge ∈ edges, id = edge.1 ∨ id = edge.2 := by
  simp [endpoints]

variable (edges : List (VertexId × VertexId))

theorem vertices_ofEdges :
    (ofEdges edges).vertices = (endpoints edges).eraseDups.map fun id =>
      { Vertex.new id with outEdges := targets edges id } := by
  rw [ofEdges_eq_connect, (indexed_empty.collect _).vertices_connect, collect_empty, vertices_bare]
  simp [empty, Vertex.new, Function.comp_def]

theorem ids_ofEdges : (ofEdges edges).vertices.map Vertex.id = (endpoints edges).eraseDups := by
  rw [vertices_ofEdges]
  simp [Vertex.new, Function.comp_def]

theorem edgeCount_ofEdges : (ofEdges edges).edgeCount = edges.length := by
  have distinct := (indexed_ofEdges edges).nodup
  have covers : ∀ edge ∈ edges, edge.1 ∈ (endpoints edges).eraseDups := fun edge member =>
    List.mem_eraseDups.2 (mem_endpoints.2 ⟨edge, member, .inl rfl⟩)
  rw [ids_ofEdges] at distinct
  rw [edgeCount_eq_sum, vertices_ofEdges, List.map_map]
  exact sum_targets distinct covers

end Edges

section Links

-- Adds an edge where the index says that its source is, and fails if there is no such place.
def link? (g : Graph) (source target : VertexId) : Option Graph := do
  let position ← g.index[source]?
  let v ← g.vertices[position]?
  return { g with vertices := g.vertices.set position (v.addOutEdge target) }

-- In two passes: the distinct ends, and then the edges, with no guard against an unknown source.
def linked? (edges : List (VertexId × VertexId)) : Option Graph :=
  edges.foldlM (fun g (source, target) => g.link? source target)
    (empty.bare (endpoints edges).eraseDups)

-- The graph that a call leaves, unless it is refused.
def granted (call : Except Error Unit × Graph) : Except Error Graph := call.1.map fun _ => call.2

-- Call by call, each of which may be refused.
def assembled (edges : List (VertexId × VertexId)) : Except Error Graph := do
  let ends ← (endpoints edges).foldlM (fun g id =>
    if g.contains id then return g else granted (g.addVertex (.new id))) empty
  edges.foldlM (fun g (source, target) => granted (g.addEdge source target)) ends

variable {g : Graph} (indexed : g.Indexed)
include indexed

theorem Indexed.link? {source : VertexId} (known : g.contains source = true) (target : VertexId) :
    g.link? source target = some (g.update source (·.addOutEdge target)) := by
  rw [contains, Std.ExtTreeMap.contains_eq_isSome_getElem?, Option.isSome_iff_exists] at known
  obtain ⟨position, found⟩ := known
  obtain ⟨v, held, -⟩ := Option.map_eq_some_iff.1 ((indexed source position).1 found)
  simp [Graph.link?, Graph.update, found, held, List.modify_eq_set_getElem?]

-- Adding edges in a row succeeds if adding one does whose ends are known.
theorem Indexed.foldlM_eq_connect {m : Type → Type} [Monad m] [LawfulMonad m]
    {link : Graph → VertexId → VertexId → m Graph}
    (links : ∀ {g : Graph}, g.Indexed → ∀ {source target}, g.contains source = true →
      g.contains target = true →
        link g source target = pure (g.update source (·.addOutEdge target)))
    {edges : List (VertexId × VertexId)}
    (known : ∀ edge ∈ edges, g.contains edge.1 = true ∧ g.contains edge.2 = true) :
    edges.foldlM (fun g (source, target) => link g source target) g = pure (g.connect edges) := by
  induction edges generalizing g with
  | nil => rfl
  | cons edge rest ih =>
    obtain ⟨source, target⟩ := edge
    obtain ⟨⟨first, second⟩, others⟩ := List.forall_mem_cons.1 known
    have here : link g source target = pure (g.update source (·.addOutEdge target)) :=
      links indexed first second
    have later := ih (indexed.update source (f := (·.addOutEdge target)) fun _ => rfl)
      (by simpa using others)
    rw [List.foldlM_cons]
    simp only [here, pure_bind, later]
    rfl

end Links

section Assembly

variable (edges : List (VertexId × VertexId))

theorem known_ends : ∀ edge ∈ edges, (empty.collect (endpoints edges)).contains edge.1 = true ∧
    (empty.collect (endpoints edges)).contains edge.2 = true := by
  intro edge member
  rw [contains_collect, contains_collect, mem_endpoints, mem_endpoints]
  exact ⟨⟨edge, member, .inl rfl⟩, ⟨edge, member, .inr rfl⟩⟩

theorem linked?_eq_ofEdges : linked? edges = some (ofEdges edges) := by
  rw [linked?, ← collect_empty, ofEdges_eq_connect]
  exact (indexed_empty.collect _).foldlM_eq_connect
    (fun indexed _ target known _ => indexed.link? known target) (known_ends edges)

theorem assembled_eq_ofEdges : assembled edges = .ok (ofEdges edges) := by
  have added (g : Graph) (id : VertexId) :
      (if g.contains id then return g else granted (g.addVertex (.new id)) : Except Error Graph) =
        pure (if g.contains id then g else g.push (.new id)) := by
    cases held : g.contains id with
    | true => rfl
    | false => exact congrArg granted (addVertex_eq_ok_iff.2 ⟨held, rfl⟩)
  simp only [assembled, added, List.foldlM_pure]
  exact (indexed_empty.collect (endpoints edges)).foldlM_eq_connect
    (fun _ _ _ first second => congrArg granted (addEdge_eq_ok_iff.2 ⟨second, first, rfl⟩))
    (known_ends edges)

structure Spans (g : Graph) (edges : List (VertexId × VertexId)) : Prop where
  -- New vertices, but for their edges.
  vertices : g.vertices = (endpoints edges).eraseDups.map fun id =>
    { Vertex.new id with outEdges := targets edges id }
  distinct : (g.vertices.map Vertex.id).Nodup
  contains (id : VertexId) : g.contains id = true ↔ ∃ edge ∈ edges, id = edge.1 ∨ id = edge.2
  edgeCount : g.edgeCount = edges.length
  linked : linked? edges = some g
  assembled : assembled edges = .ok g

example : (ofEdges [(⟨2⟩, ⟨1⟩), (⟨3⟩, ⟨3⟩), (⟨2⟩, ⟨1⟩), (⟨1⟩, ⟨2⟩)]).vertices.map
    (fun v => (v.id, v.outEdges)) = [(⟨2⟩, [⟨1⟩, ⟨1⟩]), (⟨1⟩, [⟨2⟩]), (⟨3⟩, [⟨3⟩])] := rfl

end Assembly

end BulkSync.Graph
