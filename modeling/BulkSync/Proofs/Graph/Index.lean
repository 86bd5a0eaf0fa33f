import BulkSync.Graph.Basic

set_option autoImplicit false

namespace BulkSync.Graph

def Indexed (g : Graph) : Prop :=
  ∀ id position, g.index[id]? = some position ↔ g.vertices[position]?.map Vertex.id = some id

theorem indexed_empty : empty.Indexed := by
  intro id position
  simp [empty]

theorem Indexed.contains_iff {g : Graph} (indexed : g.Indexed) (id : VertexId) :
    g.contains id = true ↔ id ∈ g.vertices.map Vertex.id := by
  rw [contains, Std.ExtTreeMap.contains_eq_isSome_getElem?, Option.isSome_iff_exists,
    List.mem_iff_getElem?]
  simp only [indexed id, List.getElem?_map]

theorem Indexed.nodup {g : Graph} (indexed : g.Indexed) : (g.vertices.map Vertex.id).Nodup := by
  refine List.pairwise_iff_getElem.2 fun i j left right before same => ?_
  have first := (indexed (g.vertices.map Vertex.id)[i] i).2 (by
    rw [← List.getElem?_map, List.getElem?_eq_getElem left])
  have second := (indexed (g.vertices.map Vertex.id)[i] j).2 (by
    rw [← List.getElem?_map, List.getElem?_eq_getElem right, same])
  rw [first] at second
  cases second
  omega

theorem Indexed.push {g : Graph} (indexed : g.Indexed) {v : Vertex}
    (fresh : g.contains v.id = false) : (g.push v).Indexed := by
  intro id position
  have absent : g.index[v.id]? = none := by
    rwa [contains, Std.ExtTreeMap.contains_eq_isSome_getElem?, Option.isSome_eq_false_iff,
      Option.isNone_iff_eq_none] at fresh
  show (g.index.insert v.id g.vertices.length)[id]? = some position ↔
    (g.vertices ++ [v])[position]?.map Vertex.id = some id
  simp only [Std.ExtTreeMap.getElem?_insert, Std.LawfulEqCmp.compare_eq_iff_eq]
  have known := indexed id position
  by_cases old : position < g.vertices.length
  · rw [List.getElem?_append_left old, ← known]
    by_cases same : v.id = id
    · subst same
      simp [absent]
      omega
    · simp [same]
  · have outside : g.vertices[position]? = none := List.getElem?_eq_none (by omega)
    rw [outside] at known
    rw [List.getElem?_append_right (by omega)]
    by_cases last : position = g.vertices.length
    · by_cases same : v.id = id <;> simp_all
    · have beyond : [v][position - g.vertices.length]? = none :=
        List.getElem?_eq_none (by simp; omega)
      have other : g.index[id]? ≠ some position := fun held => by cases known.1 held
      by_cases same : v.id = id <;> simp [beyond, same, other, Ne.symm last]

theorem Indexed.addVertex {g : Graph} (indexed : g.Indexed) (v : Vertex) :
    (g.addVertex v).2.Indexed := by
  unfold Graph.addVertex
  split
  next => exact indexed
  next fresh => exact indexed.push (by simpa using fresh)

theorem Indexed.update {g : Graph} (indexed : g.Indexed) (id : VertexId) {f : Vertex → Vertex}
    (keeps : ∀ v, (f v).id = v.id) : (g.update id f).Indexed := by
  unfold Graph.update
  split
  next position found =>
    intro other i
    rw [indexed other i, List.getElem?_modify]
    split <;> cases g.vertices[i]? <;> simp [keeps]
  next => exact indexed

theorem Indexed.addEdge {g : Graph} (indexed : g.Indexed) (source target : VertexId) :
    (g.addEdge source target).2.Indexed := by
  unfold Graph.addEdge
  split
  next => exact indexed
  next =>
    split
    next => exact indexed
    next => exact indexed.update source fun _ => rfl

theorem indexed_withVertices (n : UInt64) : (withVertices n.toNat).Indexed := by
  have bare (k : Nat) (within : k ≤ n.toNat) : (withVertices k).Indexed ∧
      (withVertices k).vertices.map Vertex.id = (List.range k).map fun i => ⟨i.toUInt64⟩ := by
    induction k with
    | zero => exact ⟨indexed_empty, rfl⟩
    | succ k ih =>
      obtain ⟨indexed, ids⟩ := ih (by omega)
      have next : withVertices (k + 1) = (withVertices k).push (.new ⟨k.toUInt64⟩) := by
        simp [withVertices, List.range_succ]
      -- Below the number of all ids no two positions give the same id.
      have fresh : (withVertices k).contains ⟨k.toUInt64⟩ = false := by
        rw [Bool.eq_false_iff, ne_eq, indexed.contains_iff, ids]
        intro member
        obtain ⟨i, below, same⟩ := List.mem_map.1 member
        have same := congrArg (·.val.toNat) same
        have before := List.mem_range.1 below
        have words := n.toNat_lt
        simp only [Nat.toUInt64_eq, UInt64.toNat_ofNat'] at same
        omega
      rw [next]
      refine ⟨indexed.push fresh, ?_⟩
      rw [push, List.map_append, ids, List.range_succ, List.map_append]
      rfl
  exact (bare n.toNat (Nat.le_refl _)).1

section Edges

-- One vertex for each id that is not there yet.
def collect (g : Graph) (ids : List VertexId) : Graph :=
  ids.foldl (fun g id => if g.contains id then g else g.push (.new id)) g

def connect (g : Graph) (edges : List (VertexId × VertexId)) : Graph :=
  edges.foldl (fun g (source, target) => g.update source (·.addOutEdge target)) g

theorem ofEdges_eq_connect (edges : List (VertexId × VertexId)) :
    ofEdges edges = (empty.collect (endpoints edges)).connect edges := rfl

theorem Indexed.collect {g : Graph} (indexed : g.Indexed) (ids : List VertexId) :
    (g.collect ids).Indexed := by
  unfold Graph.collect
  induction ids generalizing g with
  | nil => exact indexed
  | cons id rest ih =>
    rw [List.foldl_cons]
    split
    next => exact ih indexed
    next fresh => exact ih (indexed.push (v := .new id) (Bool.eq_false_iff.2 fresh))

theorem Indexed.connect {g : Graph} (indexed : g.Indexed) (edges : List (VertexId × VertexId)) :
    (g.connect edges).Indexed := by
  unfold Graph.connect
  induction edges generalizing g with
  | nil => exact indexed
  | cons edge rest ih => exact ih (indexed.update edge.1 fun _ => rfl)

theorem indexed_ofEdges (edges : List (VertexId × VertexId)) : (ofEdges edges).Indexed :=
  (indexed_empty.collect (endpoints edges)).connect edges

end Edges

end BulkSync.Graph
